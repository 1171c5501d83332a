import ValidatorClient.Proofs.Command.Preparation

namespace ValidatorClient.Command

open Ledger Program Attempt Process

variable {σ : Type} {s : σ} {ctx : Context} {payer : Signer} {command : Command}
  {fault : ArgumentFault} {numeration : UInt32} {cache cache' : BlockhashCache}
  {exchanges : List Exchange} {r : Option (Except ClientError Submission)}

theorem withLogLevel_eq_error {i j : UInt8 → Program.Instruction} {level : UInt8}
    (h : Checked.withLogLevel i level = .error fault) :
    Checked.withLogLevel j level = .error fault := by
  unfold Checked.withLogLevel at h ⊢
  cases hlevel : checkLogLevel level with
  | ok =>
    rw [hlevel] at h
    cases h
  | error e =>
    rw [hlevel] at h
    cases h
    rfl

theorem vote_eq_error {n n' : UInt32} {approve : Bool} {count : Nat} {level : UInt8}
    (h : Checked.vote n approve count level = .error fault) :
    Checked.vote n' approve count level = .error fault := by
  unfold Checked.vote at h ⊢
  cases hlevel : checkLogLevel level with
  | error e =>
    rw [hlevel] at h
    cases h
    rfl
  | ok =>
    rw [hlevel] at h
    by_cases hzero : count = 0
    · rw [if_pos hzero] at h ⊢
      exact h
    · rw [if_neg hzero] at h ⊢
      by_cases hmany : 0x100 ≤ count
      · rw [if_pos hmany] at h ⊢
        exact h
      · rw [if_neg hmany] at h
        cases h

/-- No number of a proposal makes up for another argument. -/
theorem instruction_eq_error {n n' : UInt32} (h : command.instruction n = .error fault) :
    command.instruction n' = .error fault := by
  cases command with
  | vote => exact vote_eq_error h
  | finalizeProposal | executeProposal => exact withLogLevel_eq_error h
  | _ => exact h

theorem checked_bind_of_error {β : Type} {x : Except ArgumentFault Program.Instruction}
    {next : Program.Instruction → Attempt σ β} (h : x = .error fault) :
    (checked x >>= next) s = .done s (.error (.invalidArgument (.argument fault))) :=
  ofExcept_bind_of_error _ _ (by rw [h]; rfl)

theorem prepare_of_refused {payer : Address} (hnone : command.proposal? = none)
    (h : command.instruction numeration = .error fault) :
    command.prepare ctx payer s = .done s (.error (.invalidArgument (.argument fault))) := by
  cases command with
  | vote | finalizeProposal | executeProposal => cases hnone
  | _ => exact checked_bind_of_error h

theorem exists_prepare_eq (ctx : Context) (payer : Address) {account : NumberedAccount}
    (hsome : command.proposal? = some account) (h : command.instruction numeration = .error fault) :
    ∃ next : Address × UInt32 → Attempt σ Prepared,
      command.prepare ctx payer = ctx.resolveProposal account >>= next ∧
        ∀ found t, next found t = .done t (.error (.invalidArgument (.argument fault))) := by
  cases command with
  | vote | finalizeProposal | executeProposal =>
    cases hsome
    exact ⟨_, rfl, fun found t ↦ checked_bind_of_error (instruction_eq_error h)⟩
  | _ => cases hsome

theorem run_of_prepare {e : ClientError}
    (h : command.prepare ctx payer.address cache = .done cache (.error e)) :
    command.run ctx payer cache = .done cache (.error e) := by
  rw [run, bind_apply, h]
  rfl

theorem resolveProposal_numeration_bind (ctx : Context) (n : UInt32) (s : σ)
    {next : Address × UInt32 → Attempt σ Prepared} {e : ClientError}
    (hnext : ∀ found t, next found t = .done t (.error e)) :
    (ctx.resolveProposal (.numeration n) >>= next) s = .done s (.error e) ∨
      ∃ e', locate (.proposal ctx.program n) = .error e' ∧
        (ctx.resolveProposal (.numeration n) >>= next) s = .done s (.error e') := by
  have hresolve : ctx.resolveProposal (.numeration n) = (Attempt.ofExcept do
      return (← locate (.proposal ctx.program n), n) : Attempt σ (Address × UInt32)) := rfl
  rw [hresolve]
  cases hlocate : locate (.proposal ctx.program n) with
  | error e' => exact .inr ⟨e', rfl, rfl⟩
  | ok proposal => exact .inl (hnext _ s)

theorem trace_resolveProposal_address {address : Address} {s' : σ}
    {r : Option (Except ClientError (Address × UInt32))}
    (h : (ctx.resolveProposal (.address address) s).Trace exchanges s' r) :
    exchanges = [] ∨ ∃ general answer, ctx.single .general = .ok general ∧
      exchanges = [⟨.account general, answer⟩] := by
  rcases trace_bind_cases h with ⟨_, hgeneral, -⟩ | ⟨first, rest, _, _, he, hgeneral, h⟩
  · exact Context.trace_generalAccount hgeneral
  · rw [he, (trace_ofExcept_iff.1 h).1, List.append_nil]
    exact Context.trace_generalAccount hgeneral

theorem trace_resolved_of_error {account : NumberedAccount}
    {next : Address × UInt32 → Attempt σ Prepared} {e : ClientError}
    (hnext : ∀ found t, next found t = .done t (.error e)) {s' : σ}
    {r : Option (Except ClientError Prepared)}
    (h : ((ctx.resolveProposal account >>= next) s).Trace exchanges s' r) :
    (∃ stop : Option ClientError,
        (ctx.resolveProposal account s).Trace exchanges s' (stop.map .error) ∧
          r = stop.map .error) ∨
      ∃ found, (ctx.resolveProposal account s).Trace exchanges s' (some (.ok found)) ∧
        r = some (.error e) := by
  rcases trace_bind_cases h with hstop | ⟨first, rest, t, found, he, hfound, hrest⟩
  · exact .inl hstop
  · rw [hnext] at hrest
    obtain ⟨hnil, ht, hr⟩ := trace_done_iff.1 hrest
    rw [he, hnil, List.append_nil, ht]
    exact .inr ⟨found, hfound, hr⟩

/-- What the program would refuse is not sent. Only to learn the number of a proposal from its
address is the general account asked for before that. -/
theorem run_of_refused (ctx : Context) (payer : Signer) (cache : BlockhashCache)
    (h : command.instruction numeration = .error fault) :
    ((∀ address, command.proposal? ≠ some (.address address)) →
      command.run ctx payer cache = .done cache (.error (.invalidArgument (.argument fault))) ∨
        ∃ n e, command.proposal? = some (.numeration n) ∧
          locate (.proposal ctx.program n) = .error e ∧
          command.run ctx payer cache = .done cache (.error e)) ∧
    ∀ address, command.proposal? = some (.address address) → ∀ exchanges cache' r,
      (command.run ctx payer cache).Trace exchanges cache' r →
        (exchanges = [] ∨ ∃ general answer, ctx.single .general = .ok general ∧
          exchanges = [⟨.account general, answer⟩]) ∧
        ((∃ stop : Option ClientError,
            (ctx.resolveProposal (.address address) cache).Trace exchanges cache'
              (stop.map .error) ∧
              r = stop.map .error) ∨
          ∃ found, (ctx.resolveProposal (.address address) cache).Trace exchanges cache'
            (some (.ok found)) ∧
            r = some (.error (.invalidArgument (.argument fault)))) := by
  constructor
  · intro hnoAddress
    cases hproposal : command.proposal? with
    | none => exact .inl (run_of_prepare (prepare_of_refused hproposal h))
    | some account =>
      cases account with
      | address address => exact absurd hproposal (hnoAddress address)
      | numeration n =>
        obtain ⟨next, hprepare, hnext⟩ := exists_prepare_eq ctx payer.address hproposal h
        rcases resolveProposal_numeration_bind ctx n cache hnext with heq | ⟨e, hlocate, heq⟩
        · exact .inl (run_of_prepare (by rw [hprepare, heq]))
        · exact .inr ⟨n, e, rfl, hlocate, run_of_prepare (by rw [hprepare, heq])⟩
  · intro address hproposal exchanges cache' r htrace
    obtain ⟨next, hprepare, hnext⟩ := exists_prepare_eq ctx payer.address hproposal h
    rw [run, hprepare] at htrace
    rcases trace_bind_cases htrace with
      ⟨stop, htrace, hr⟩ | ⟨first, rest, t, prepared, he, htrace, -⟩
    · rcases trace_resolved_of_error hnext htrace with
        ⟨stop', hresolve, hstop⟩ | ⟨found, hresolve, hstop⟩
      · refine ⟨trace_resolveProposal_address hresolve, .inl ⟨stop', hresolve, ?_⟩⟩
        rw [hr, stop_injective hstop]
      · refine ⟨trace_resolveProposal_address hresolve, .inr ⟨found, hresolve, ?_⟩⟩
        have hsome : stop = some (.invalidArgument (.argument fault)) := stop_injective hstop
        rw [hr, hsome]
        rfl
    · rcases trace_resolved_of_error hnext htrace with ⟨stop', -, hstop⟩ | ⟨_, -, hstop⟩
      · exact absurd hstop.symm (stop_ne_ok stop' _)
      · cases hstop

theorem run_of_refused_delegateGem :
    let ctx : Context := ⟨⟨.replicate 32 2⟩, none, none, none⟩
    let payer : Signer := ⟨0, ⟨.replicate 32 1⟩, .inMemory⟩
    let command : Command := .delegateGem ⟨.replicate 32 3⟩ 6
    let fault : ArgumentFault := .above "log_level" 6 5
    command.instruction 0 = .error fault ∧
      command.run ctx payer (.empty 0) =
          .done (.empty 0) (.error (.invalidArgument (.argument fault))) := by
  intro ctx payer command fault
  have h : command.instruction 0 = .error fault := rfl
  rcases (run_of_refused ctx payer (.empty 0) h).1 (fun _ ↦ nofun) with heq | ⟨_, _, hproposal, -⟩
  · exact ⟨h, heq⟩
  · cases hproposal

/-- The end of a proposal that is named by its address. The log level is refused only after the
general account was asked for, or, as here, never. -/
theorem run_finalizeProposal_asks :
    let ctx : Context := ⟨⟨.replicate 32 42⟩, none, none, none⟩
    let payer : Signer :=
      ⟨0, .ofNat 0x8a88e3dd7409f195fd52db2d3cba5d72ca6709bf1d94121bf3748801b40f6f5c, .inMemory⟩
    let command : Command := .finalizeProposal (.address ⟨.replicate 32 3⟩) 6
    let general : Address :=
      .ofNat 0xd80973420761adbb43944244fa3ef455aef97c21f3f567b83dde67798e759893
    (∀ n, command.instruction n = .error (.above "log_level" 6 5)) ∧
      (command.run ctx payer (.empty 0)).Trace
        [⟨.account general, some (Except.ok none)⟩] (.empty 0)
        (some (.error (.notFound (.account "general" general)))) := by
  intro ctx payer command general
  have hsingle : ctx.single .general = .ok general := by decide +kernel
  refine ⟨fun _ ↦ rfl, ?_⟩
  have hgeneral :
      (ctx.generalAccount (.empty 0 : BlockhashCache)).Trace
        [⟨.account general, some (Except.ok none)⟩] (.empty 0)
        (some (.error (.notFound (.account "general" general)))) := by
    rw [Context.generalAccount, ofExcept_bind_of_ok _ _ hsingle]
    refine trace_bind_of_error _ ?_
    rw [Context.accountData, ask_bind]
    exact trace_wait_iff.2 (.inr ⟨Except.ok none, [], rfl, .done _ _⟩)
  have hresolve :
      (ctx.resolveProposal (.address ⟨.replicate 32 3⟩) (.empty 0 : BlockhashCache)).Trace
        [⟨.account general, some (Except.ok none)⟩] (.empty 0)
        (some (.error (.notFound (.account "general" general)))) :=
    trace_bind_of_error _ hgeneral
  exact trace_bind_of_error _ (trace_bind_of_error _ hresolve)

end ValidatorClient.Command
