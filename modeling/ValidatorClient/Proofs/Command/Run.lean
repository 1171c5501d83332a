import ValidatorClient.Proofs.Command.Preparation
import ValidatorClient.Proofs.Context

namespace ValidatorClient.Command

open Ledger Attempt Process

variable {ctx : Context} {payer : Signer} {command : Command} {cache cache' : BlockhashCache}
  {exchanges : List Exchange} {r : Option (Except ClientError Submission)}

def others : Command → List Signer
  | mintGem mint _ => [mint]
  | _ => []

theorem signers_eq (command : Command) (payer : Signer) :
    command.signers payer = payer :: command.others := by
  cases command <;> rfl

/-- A command stops before it sends anything, or it sends the one instruction that it prepared. -/
theorem trace_run (h : (command.run ctx payer cache).Trace exchanges cache' r) :
    (Prompt exchanges r ∧ (∀ e ∈ exchanges, ∃ address, e.query = .account address) ∧
        (∀ submission, r ≠ some (.ok submission)) ∧ ∀ e, r = some (.error e) → e.OfPreparation) ∨
      ∃ reads sent prepared data, exchanges = reads ++ Moment.exchanges sent ∧
        (∀ e ∈ reads, e.Succeeds) ∧ (∀ e ∈ reads, ∃ address, e.query = .account address) ∧
        (command.prepare ctx payer.address cache).Trace reads cache (some (.ok prepared)) ∧
        command.Asked ctx cache reads prepared ∧
        Program.Instruction.layout.encode prepared.instruction = .ok data ∧
        ctx.Sent [⟨ctx.program, prepared.accounts, data⟩] payer command.others cache sent
          cache' r := by
  rcases trace_bind_cases h with
    ⟨stop, hprepare, hr⟩ | ⟨reads, sent, t, prepared, he, hprepare, hsend⟩
  · obtain ⟨-, hprompt, hasked, herror, -⟩ := reads_prepare command _ _ _ hprepare
    subst hr
    exact .inl ⟨hprompt.of_stop, hasked, stop_ne_ok stop, fun e he ↦ herror e (stop_eq_error he)⟩
  · obtain ⟨ht, hprompt, hasked, -, hpost⟩ := reads_prepare command _ _ _ hprepare
    subst ht he
    cases hdata : Program.Instruction.layout.encode prepared.instruction with
    | error e =>
      rw [ofExcept_bind_of_error _ _ (by rw [hdata]; rfl)] at hsend
      obtain ⟨hrest, -, hr⟩ := trace_done_iff.1 hsend
      subst hrest hr
      rw [List.append_nil]
      refine .inl ⟨.done hprompt.succeeds _, hasked, nofun, fun e he ↦ ?_⟩
      cases he
      exact .codec _
    | ok data =>
      rw [ofExcept_bind_of_ok _ _ (by rw [hdata]; rfl), signers_eq] at hsend
      obtain ⟨sent, hsend, he⟩ := trace_iff_timed.1 hsend
      rw [← he]
      exact .inr ⟨reads, sent, prepared, data, rfl, hprompt.succeeds, hasked, hprepare,
        (hpost _ rfl).1, hdata, Context.sent_of_timed hsend⟩

theorem prompt_of_run (h : (command.run ctx payer cache).Trace exchanges cache' r) :
    Prompt exchanges r := by
  rcases trace_run h with ⟨hprompt, -⟩ | ⟨reads, sent, _, _, he, hsucceeds, -, -, -, -, hsent⟩
  · exact hprompt
  · rw [he]
    exact hsent.prompt.append hsucceeds

theorem eq_append_of_ok {submission : Submission}
    (h : (command.run ctx payer cache).Trace exchanges cache' (some (.ok submission))) :
    ∃ before signed bytes wire lastValidHeight,
      exchanges =
        before ++ (signed ++ [⟨.submit wire lastValidHeight, some (Except.ok submission)⟩]) ∧
      (signed.map (·.query)).Perm
        ((command.signers payer).map fun signer ↦ .sign signer bytes) := by
  rcases trace_run h with ⟨-, -, hr, -⟩ | ⟨reads, sent, _, _, he, -, -, -, -, -, hsent⟩
  · exact absurd rfl (hr submission)
  obtain ⟨fetched, signed, submitted, hparts, hordered⟩ := hsent.ordered
  rw [← signers_eq] at hordered
  rcases hordered.submits with
    ⟨-, hr⟩ | ⟨bytes, wire, lastValidHeight, answer, hsubmitted, hr, hasked, -⟩
  · exact absurd rfl (hr submission)
  · rcases answer with _ | _ | submission <;> cases hr
    refine ⟨reads ++ fetched, signed, bytes, wire, lastValidHeight, ?_, hasked⟩
    rw [he, hparts, hsubmitted]
    exact (List.append_assoc reads fetched _).symm

theorem exists_submit_of_ok {submission : Submission}
    (h : (command.run ctx payer cache).Trace exchanges cache' (some (.ok submission))) :
    ∃ wire lastValidHeight, ⟨.submit wire lastValidHeight, some (Except.ok submission)⟩ ∈
      exchanges := by
  obtain ⟨before, signed, _, wire, lastValidHeight, he, -⟩ := eq_append_of_ok h
  refine ⟨wire, lastValidHeight, ?_⟩
  rw [he]
  exact List.mem_append_right _ (List.mem_append_right _ (List.mem_singleton_self _))

theorem exists_sign_of_ok {submission : Submission} {signer : Signer}
    (h : (command.run ctx payer cache).Trace exchanges cache' (some (.ok submission)))
    (hsigner : signer ∈ command.signers payer) :
    ∃ bytes signature, ⟨.sign signer bytes, some (Except.ok signature)⟩ ∈ exchanges := by
  obtain ⟨before, signed, bytes, _, _, he, hasked⟩ := eq_append_of_ok h
  obtain ⟨⟨query, answer⟩, hsigned, hquery⟩ :=
    List.mem_map.1 (hasked.mem_iff.2 (List.mem_map_of_mem hsigner))
  have hmem : ⟨query, answer⟩ ∈ exchanges := by
    rw [he]
    exact List.mem_append_right _ (List.mem_append_left _ hsigned)
  cases hquery
  cases (prompt_of_run h).succeeds _ hmem with
  | sign signature => exact ⟨bytes, signature, hmem⟩

/-- An outside without accounts, where everyone gives the same signature and every transaction is
accepted. -/
def obliging (signature : Signature) : (query : Query) → StateM Unit (Nat × query.Answer)
  | .blockReference => return (0, Except.ok ⟨.replicate 32 3, 42⟩)
  | .submit _ _ => return (0, Except.ok ⟨"accepted"⟩)
  | .account _ => return (0, Except.ok none)
  | .sign _ _ => return (0, Except.ok signature)
  | .deviceAddress _ _ => return (0, none)

theorem exists_trace_resetUris :
    let payer : Signer :=
      ⟨0, .ofNat 0x8a88e3dd7409f195fd52db2d3cba5d72ca6709bf1d94121bf3748801b40f6f5c, .inMemory⟩
    ∃ (exchanges : List Exchange) (cache' : BlockhashCache), ((resetUris 0).run
      ⟨⟨.replicate 32 2⟩, none, none, some 5⟩ payer (.empty 0)).Trace exchanges cache'
        (some (.ok ⟨"accepted"⟩)) := by
  intro payer
  let ctx : Context := ⟨⟨.replicate 32 2⟩, none, none, some 5⟩
  let signature : Signature :=
    ⟨[237, 238, 2, 219, 142, 43, 111, 131, 129, 34, 39, 175, 75, 148, 249, 141, 124, 206, 214, 223,
    117, 230, 25, 159, 181, 2, 166, 252, 134, 197, 158, 171, 126, 215, 140, 110, 86, 221, 69, 179,
    216, 40, 193, 180, 246, 109, 225, 175, 62, 203, 21, 137, 134, 42, 22, 169, 120, 138, 170, 249,
    197, 174, 35, 5], rfl⟩
  obtain ⟨exchanges, h⟩ :=
    exists_trace_of_run (obliging signature) none ((resetUris 0).run ctx payer (.empty 0)) 0 ()
  have hr :
      ((((resetUris 0).run ctx payer (.empty 0)).run (obliging signature) none 0).run ()).1.2.2 =
      some (.ok ⟨"accepted"⟩) := by
    decide +kernel
  rw [hr] at h
  exact ⟨exchanges, _, h⟩

/-- Accounts are read first, then a transaction is sent. The first exchange that does not succeed is
the last one, and what was wrong with it is the result. -/
theorem run_ordered (h : (command.run ctx payer cache).Trace exchanges cache' r) :
    (∃ reads fetched signed submitted, exchanges = reads ++ (fetched ++ (signed ++ submitted)) ∧
      (∀ e ∈ reads, ∃ address, e.query = .account address) ∧
      Context.Ordered (command.signers payer) cache fetched signed submitted r) ∧
    ∀ before e after, exchanges = before ++ e :: after → ¬ e.Succeeds →
      after = [] ∧
        (e.answer = none ∧ r = none ∨ ∃ error, e.Fails error ∧ r = some (.error error)) := by
  refine ⟨?_, fun _ _ _ ↦ (prompt_of_run h).stops⟩
  rcases trace_run h with ⟨-, hasked, hr, -⟩ | ⟨reads, sent, _, _, he, -, hasked, -, -, -, hsent⟩
  · exact ⟨exchanges, [], [], [], by simp, hasked, ⟨⟨by simp, by simp⟩, by simp, .inl ⟨rfl, hr⟩⟩⟩
  · obtain ⟨fetched, signed, submitted, hparts, hordered⟩ := hsent.ordered
    rw [← signers_eq] at hordered
    exact ⟨reads, fetched, signed, submitted, by rw [he, hparts], hasked, hordered⟩

theorem run_ordered_resetUris :
    let payer : Signer :=
      ⟨0, .ofNat 0x8a88e3dd7409f195fd52db2d3cba5d72ca6709bf1d94121bf3748801b40f6f5c, .inMemory⟩
    ∃ reads fetched signed bytes wire lastValidHeight cache', ((resetUris 0).run
        ⟨⟨.replicate 32 2⟩, none, none, some 5⟩ payer (.empty 0)).Trace
      (reads ++
        (fetched ++ (signed ++ [⟨.submit wire lastValidHeight, some (Except.ok ⟨"accepted"⟩)⟩])))
      cache' (some (.ok ⟨"accepted"⟩)) ∧
    signed.map (·.query) = [.sign payer bytes] := by
  intro payer
  obtain ⟨exchanges, cache', h⟩ := exists_trace_resetUris
  obtain ⟨⟨reads, fetched, signed, submitted, he, -, hordered⟩, -⟩ := run_ordered h
  rcases hordered.submits with
    ⟨-, hr⟩ | ⟨bytes, wire, lastValidHeight, answer, hsubmitted, hr, hsigned, -⟩
  · exact absurd rfl (hr _)
  · rcases answer with _ | _ | submission <;> cases hr
    rw [he, hsubmitted] at h
    exact ⟨reads, fetched, signed, bytes, wire, lastValidHeight, cache', h,
      List.perm_singleton.1 hsigned⟩

end ValidatorClient.Command
