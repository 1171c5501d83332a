import ValidatorClient.Proofs.Assembler.Signing
import ValidatorClient.Proofs.BlockhashCache

namespace ValidatorClient

open Ledger Attempt Process

namespace Attempt

/-- A change that is made at once or not at all. -/
def change {σ : Type} (f : σ → Except ClientError σ) : Attempt σ Unit := do
  set (← ofExcept (f (← get)))

variable {σ β : Type} {f : σ → Except ClientError σ} {s s' : σ} {b : β} {exchanges : List Exchange}

theorem trace_change_iff {r : Option (Except ClientError Unit)} :
    (change f s).Trace exchanges s' r ↔
      exchanges = [] ∧ ((∃ e, f s = .error e ∧ s' = s ∧ r = some (.error e)) ∨
        (f s = .ok s' ∧ r = some (.ok ()))) := by
  rw [change, get_bind]
  cases hf : f s with
  | error e =>
    rw [ofExcept_bind_of_error _ _ rfl, trace_done_iff]
    simp
  | ok t =>
    rw [ofExcept_bind_of_ok _ _ rfl]
    refine trace_done_iff.trans ?_
    simp [eq_comm]

theorem trace_map_change_iff {r : Option (Except ClientError β)} :
    (((fun _ ↦ b) <$> change f) s).Trace exchanges s' r ↔
      exchanges = [] ∧ ((∃ e, f s = .error e ∧ s' = s ∧ r = some (.error e)) ∨
        (f s = .ok s' ∧ r = some (.ok b))) := by
  rw [trace_map_iff]
  constructor
  · intro h
    obtain ⟨result, hact, hr⟩ := h
    obtain ⟨he, ⟨e, hf, hs, hresult⟩ | ⟨hf, hresult⟩⟩ := trace_change_iff.1 hact
    · rw [hresult] at hr
      exact ⟨he, .inl ⟨e, hf, hs, hr⟩⟩
    · rw [hresult] at hr
      exact ⟨he, .inr ⟨hf, hr⟩⟩
  · intro h
    obtain ⟨he, h⟩ := h
    rcases h with ⟨e, hf, hs, hr⟩ | ⟨hf, hr⟩
    · exact ⟨some (.error e), trace_change_iff.2 ⟨he, .inl ⟨e, hf, hs, rfl⟩⟩, hr⟩
    · exact ⟨some (.ok ()), trace_change_iff.2 ⟨he, .inr ⟨hf, rfl⟩⟩, hr⟩

end Attempt

namespace Assembler

variable {a a' : Assembler} {phase : Phase} {c c' : Compiled} {exchanges : List Exchange}

/-- The operations of an assembler. A block reference is fetched through a cache that may hold
anything. -/
inductive Operation where
  | add (instructions : List Instruction)
  | setReference (reference : BlockReference)
  | fetchReference (cache : BlockhashCache)
  | addSignature (signer : Address) (signature : Signature)
  | sign (signers : List Signer)
  | submit

def fetchThrough (cache : BlockhashCache) : Attempt Assembler BlockReference := fun a ↦
  (fetchReference (a, cache)).mapState (·.1)

/-- Does an operation, and gives the block reference that it fixed, if it fixed one. -/
def Operation.act : Operation → Attempt Assembler (Option BlockReference)
  | add instructions => (fun _ ↦ none) <$> change fun a ↦ a.add instructions
  | setReference reference => (fun _ ↦ some reference) <$> change fun a ↦ a.setReference reference
  | fetchReference cache => some <$> fetchThrough cache
  | addSignature signer signature =>
    (fun _ ↦ none) <$> change fun a ↦ a.addSignature signer signature
  | sign signers => (fun _ ↦ none) <$> Assembler.sign signers
  | submit => (fun _ ↦ none) <$> Assembler.submit

/-- An operation, what was asked and answered during it, and its result unless it was given up. -/
structure Step where
  operation : Operation
  exchanges : List Exchange
  result : Option (Except ClientError (Option BlockReference))

def Step.added : Step → List Instruction
  | ⟨.add instructions, _, some (.ok _)⟩ => instructions
  | _ => []

def Step.fixed : Step → List BlockReference
  | ⟨_, _, some (.ok (some reference))⟩ => [reference]
  | _ => []

def submissions (exchanges : List Exchange) : List (Bytes × UInt64) :=
  exchanges.filterMap fun e ↦
    match e.query with
    | .submit wire lastValidHeight => some (wire, lastValidHeight)
    | _ => none

def Step.submitted (step : Step) : List (Bytes × UInt64) := submissions step.exchanges

/-- The owner takes the steps in any order, and the outside answers as it likes. -/
inductive Run (feePayer : Address) : List Step → Assembler → Prop
  | start : Run feePayer [] (start feePayer)
  | step {steps : List Step} {a a' : Assembler} {operation : Operation} {exchanges : List Exchange}
      {result : Option (Except ClientError (Option BlockReference))} (h : Run feePayer steps a)
      (htrace : (operation.act a).Trace exchanges a' result) :
      Run feePayer (steps ++ [⟨operation, exchanges, result⟩]) a'

theorem run_setReference {feePayer : Address} {instructions : List Instruction}
    {reference : BlockReference}
    (h : setReference ⟨feePayer, instructions, .building, none⟩ reference = .ok a) :
    Run feePayer [⟨.add instructions, [], some (.ok none)⟩,
      ⟨.setReference reference, [], some (.ok (some reference))⟩] a := by
  have hadd :
      Run feePayer [⟨.add instructions, [], some (.ok none)⟩]
        ⟨feePayer, instructions, .building, none⟩ :=
    .step .start (trace_map_change_iff.2 ⟨rfl, .inr ⟨rfl, rfl⟩⟩)
  have hset :
      ((Operation.setReference reference).act ⟨feePayer, instructions, .building, none⟩).Trace [] a
        (some (.ok (some reference))) :=
    trace_map_change_iff.2 ⟨rfl, .inr ⟨h, rfl⟩⟩
  exact hadd.step hset

/-- All that a step can do: what it adds, which block reference it fixes, what it submits, and the
assembler after it. -/
inductive Moves (a : Assembler) : List Instruction → List BlockReference →
    List (Bytes × UInt64) → Assembler → Prop
  | stay : Moves a [] [] [] a
  | add (instructions : List Instruction) (hphase : a.IsIn .building) :
      Moves a instructions [] [] { a with instructions := a.instructions ++ instructions }
  | await {phase : Phase} (hphase : a.IsIn phase) (hopen : phase.IsOpen) :
      Moves a [] [] [] { a with stage := .awaitingBlockReference }
  | compile {phase : Phase} {a' : Assembler} {reference : BlockReference} (hphase : a.IsIn phase)
      (hopen : phase.IsOpen) (hcompile : a.compile reference = .ok a') :
      Moves a [] [reference] [] a'
  | sign {c c' : Compiled} (hphase : a.IsIn (.compiled c)) (hfills : c.Fills c') :
      Moves a [] [] [] (a.enter (.compiled c'))
  | submit {c : Compiled} {wire : Bytes} (hphase : a.IsIn (.compiled c))
      (hwire : c.wire = .ok wire) :
      Moves a [] [] [(wire, c.reference.lastValidHeight)]
        { a with stage := .submitted, compiled? := none }

theorem isIn_awaiting (hphase : a.IsIn phase) (hopen : phase.IsOpen) :
    { a with stage := .awaitingBlockReference : Assembler }.IsIn .awaiting := by
  refine ⟨rfl, hphase.compiled?_eq.trans ?_⟩
  rcases hopen with rfl | rfl <;> rfl

theorem submit_of_compiled {wire : Bytes}
    (hstage : a.stage ∈ [.collectingSignatures, .readyToSubmit]) (hcompiled : a.compiled = .ok c)
    (hwire : a.serialize = .ok wire) :
    submit a = .wait { a with stage := .submitted, compiled? := none }
      (.submit wire c.reference.lastValidHeight) fun (answer : Except RpcError Submission) ↦
        .done { a with stage := .submitted, compiled? := none } (answer.mapError .rpc) := by
  rw [submit, get_bind, ofExcept_bind_of_ok _ _ (expectStage_of_mem hstage),
    ofExcept_bind_of_ok _ _ hwire, ofExcept_bind_of_ok _ _ hcompiled, set_bind, ask_bind]
  congr 1
  funext answer
  cases answer <;> rfl

theorem submit_of_serialize_error {e : ClientError}
    (hstage : a.stage ∈ [.collectingSignatures, .readyToSubmit]) (h : a.serialize = .error e) :
    submit a = .done a (.error e) := by
  rw [submit, get_bind, ofExcept_bind_of_ok _ _ (expectStage_of_mem hstage),
    ofExcept_bind_of_error _ _ h]

theorem submit_of_stage (h : a.stage ∉ [.collectingSignatures, .readyToSubmit]) :
    submit a = .done a (.error (.invalidState (.wrongStage "submit" a.stage))) := by
  rw [submit, get_bind, ofExcept_bind_of_error _ _ (expectStage_of_notMem h)]

/-- Nothing is submitted, or else the assembler is through whatever the node answers. -/
theorem submit_cases (a : Assembler) :
    (∃ e, submit a = .done a (.error e)) ∨
      ∃ wire lastValidHeight, submit a = .wait { a with stage := .submitted, compiled? := none }
        (.submit wire lastValidHeight) fun (answer : Except RpcError Submission) ↦
          .done { a with stage := .submitted, compiled? := none } (answer.mapError .rpc) := by
  by_cases hstage : a.stage ∈ [.collectingSignatures, .readyToSubmit]
  · cases hcompiled : a.compiled with
    | error e =>
      refine .inl ⟨e, submit_of_serialize_error hstage ?_⟩
      rw [serialize, hcompiled]
      rfl
    | ok c =>
      cases hwire : a.serialize with
      | error e => exact .inl ⟨e, submit_of_serialize_error hstage hwire⟩
      | ok wire => exact .inr ⟨wire, _, submit_of_compiled hstage hcompiled hwire⟩
  · exact .inl ⟨_, submit_of_stage hstage⟩

theorem submit_of_wire {wire : Bytes} (hphase : a.IsIn (.compiled c)) (hwire : c.wire = .ok wire) :
    submit a = .wait { a with stage := .submitted, compiled? := none }
      (.submit wire c.reference.lastValidHeight) fun (answer : Except RpcError Submission) ↦
        .done { a with stage := .submitted, compiled? := none } (answer.mapError .rpc) :=
  submit_of_compiled hphase.stage_mem hphase.compiled_eq (hphase.serialize_eq.trans hwire)

theorem submit_of_wire_error {e : ClientError} (hphase : a.IsIn (.compiled c))
    (hwire : c.wire = .error e) : submit a = .done a (.error e) :=
  submit_of_serialize_error hphase.stage_mem (hphase.serialize_eq.trans hwire)

theorem sign_of_stage {signers : List Signer}
    (h : a.stage ∉ [.collectingSignatures, .readyToSubmit]) :
    sign signers a = .done a (.error (.invalidState (.wrongStage "sign" a.stage))) := by
  rw [sign, get_bind, ofExcept_bind_of_error _ _ (expectStage_of_notMem h)]

theorem trace_submit {r : Option (Except ClientError Submission)} (hphase : a.IsIn phase)
    (h : (submit a).Trace exchanges a' r) :
    (∃ e, exchanges = [] ∧ a' = a ∧ r = some (.error e)) ∨
      ∃ c wire answer, phase = .compiled c ∧ c.wire = .ok wire ∧
        exchanges = [⟨.submit wire c.reference.lastValidHeight, answer⟩] ∧
        a' = { a with stage := .submitted, compiled? := none } := by
  by_cases hstage : a.stage ∈ [.collectingSignatures, .readyToSubmit]
  · obtain ⟨c, rfl⟩ := Phase.stage_mem_compiled_iff.1 (hphase.stage_eq ▸ hstage)
    cases hwire : c.wire with
    | error e =>
      rw [submit_of_wire_error hphase hwire] at h
      obtain ⟨he, ha, hr⟩ := trace_done_iff.1 h
      exact .inl ⟨e, he, ha, hr⟩
    | ok wire =>
      rw [submit_of_wire hphase hwire] at h
      refine .inr ⟨c, wire, ?_⟩
      rcases trace_wait_iff.1 h with ⟨he, ha, -⟩ | ⟨answer, rest, he, h⟩
      · exact ⟨none, rfl, hwire, he, ha⟩
      · obtain ⟨hrest, ha, -⟩ := trace_done_iff.1 h
        rw [hrest] at he
        exact ⟨_, rfl, hwire, he, ha⟩
  · rw [submit_of_stage hstage] at h
    obtain ⟨he, ha, hr⟩ := trace_done_iff.1 h
    exact .inl ⟨_, he, ha, hr⟩

theorem trace_sign {signers : List Signer} {r : Option (Except ClientError Unit)}
    (hphase : a.IsIn phase) (h : (sign signers a).Trace exchanges a' r) :
    (∃ e, exchanges = [] ∧ a' = a ∧ r = some (.error e)) ∨
      ∃ c c', phase = .compiled c ∧ c.Fills c' ∧ a' = a.enter (.compiled c') ∧
        ∀ e ∈ exchanges, ∃ signer ∈ signers, e.query = .sign signer c.bytes := by
  by_cases hstage : a.stage ∈ [.collectingSignatures, .readyToSubmit]
  · obtain ⟨c, rfl⟩ := Phase.stage_mem_compiled_iff.1 (hphase.stage_eq ▸ hstage)
    rcases trace_sign_of_compiled hphase h with
      ⟨signer, -, -, he, ha, hr⟩ | ⟨planned, c', hsigners, hslots, hsigns, ha⟩
    · exact .inl ⟨_, he, ha, hr⟩
    · exact .inr ⟨c, c', rfl, hsigns.fills hslots, ha, hsigns.query_of_mem hsigners⟩
  · rw [sign_of_stage hstage] at h
    obtain ⟨he, ha, hr⟩ := trace_done_iff.1 h
    exact .inl ⟨_, he, ha, hr⟩

theorem timed_fetchReference {cache : BlockhashCache} {moments : List Moment}
    {s : Assembler × BlockhashCache} (hopen : a.checkOpen "fetch a block reference" = .ok ())
    {r : Option (Except ClientError BlockReference)}
    (h : (fetchReference (a, cache)).Timed moments s r) :
    ∃ (now : Nat) (cache' : BlockhashCache),
      (∃ stop : Option ClientError, cache.Fetches now moments cache' (stop.map .error) ∧
        s = ({ a with stage := .awaitingBlockReference }, cache') ∧ r = stop.map .error) ∨
      ∃ reference : BlockReference, cache.Fetches now moments cache' (some (.ok reference)) ∧
        ((∃ e, a.compile reference = .error e ∧
            s = ({ a with stage := .awaitingBlockReference }, cache') ∧ r = some (.error e)) ∨
          ∃ a', a.compile reference = .ok a' ∧ s = (a', cache') ∧ r = some (.ok reference)) := by
  rw [fetchReference, get_bind] at h
  dsimp only at h
  rw [ofExcept_bind_of_ok _ _ hopen, modify_bind] at h
  rcases timed_bind_cases h with ⟨stop, hfetch, hr⟩ | ⟨first, rest, t, reference, hm, hfetch, h⟩
  · obtain ⟨cache', hfetch, hs⟩ := timed_onRight_iff.1 hfetch
    obtain ⟨now, hfetch⟩ := BlockhashCache.timed_fetch hfetch
    exact ⟨now, cache', .inl ⟨stop, hfetch, hs, hr⟩⟩
  · obtain ⟨cache', hfetch, hs⟩ := timed_onRight_iff.1 hfetch
    obtain ⟨now, hfetch⟩ := BlockhashCache.timed_fetch hfetch
    rw [hs, get_bind] at h
    dsimp only at h
    have hawaiting :
      compile { a with stage := .awaitingBlockReference } reference = a.compile reference := rfl
    refine ⟨now, cache', .inr ⟨reference, ?_⟩⟩
    cases hcompile : a.compile reference with
    | error e =>
      rw [ofExcept_bind_of_error _ _ (hawaiting.trans hcompile)] at h
      obtain ⟨hrest, hs, hr⟩ := timed_done_iff.1 h
      rw [hm, hrest, List.append_nil]
      exact ⟨hfetch, .inl ⟨e, rfl, hs, hr⟩⟩
    | ok compiled =>
      rw [ofExcept_bind_of_ok _ _ (hawaiting.trans hcompile)] at h
      obtain ⟨hrest, hs, hr⟩ := timed_done_iff.1 h
      rw [hm, hrest, List.append_nil]
      exact ⟨hfetch, .inr ⟨compiled, rfl, hs, hr⟩⟩

theorem trace_fetchThrough_of_open {cache : BlockhashCache}
    {r : Option (Except ClientError BlockReference)}
    (hopen : a.checkOpen "fetch a block reference" = .ok ())
    (h : (fetchThrough cache a).Trace exchanges a' r) :
    (∀ e ∈ exchanges, e.query = .blockReference) ∧
      ((a' = { a with stage := .awaitingBlockReference } ∧ ∀ reference, r ≠ some (.ok reference)) ∨
        ∃ reference, a.compile reference = .ok a' ∧ r = some (.ok reference)) := by
  obtain ⟨s, h, hs⟩ := trace_mapState_iff.1 h
  obtain ⟨moments, h, he⟩ := trace_iff_timed.1 h
  rw [← he]
  obtain ⟨now, cache', ⟨stop, hfetch, hstate, hr⟩ | ⟨reference, hfetch, hend⟩⟩ :=
    timed_fetchReference hopen h
  · refine ⟨hfetch.queries, .inl ⟨by rw [hs, hstate], ?_⟩⟩
    rw [hr]
    exact fun reference ↦ stop_ne_ok stop reference
  · refine ⟨hfetch.queries, ?_⟩
    rcases hend with ⟨e, -, hstate, hr⟩ | ⟨compiled, hcompile, hstate, hr⟩
    · refine .inl ⟨by rw [hs, hstate], ?_⟩
      rw [hr]
      exact nofun
    · rw [hs, hstate]
      exact .inr ⟨reference, hcompile, hr⟩

theorem fetchThrough_of_checkOpen {cache : BlockhashCache} {e : ClientError}
    (h : a.checkOpen "fetch a block reference" = .error e) :
    fetchThrough cache a = .done a (.error e) := by
  rw [fetchThrough, fetchReference, get_bind]
  dsimp only
  rw [ofExcept_bind_of_error _ _ h]
  rfl

theorem trace_fetchThrough {cache : BlockhashCache} {r : Option (Except ClientError BlockReference)}
    (hphase : a.IsIn phase) (h : (fetchThrough cache a).Trace exchanges a' r) :
    (∃ e, exchanges = [] ∧ a' = a ∧ r = some (.error e)) ∨
      phase.IsOpen ∧ (∀ e ∈ exchanges, e.query = .blockReference) ∧
        ((a' = { a with stage := .awaitingBlockReference } ∧
            ∀ reference, r ≠ some (.ok reference)) ∨
          ∃ reference, a.compile reference = .ok a' ∧ r = some (.ok reference)) := by
  cases hopen : a.checkOpen "fetch a block reference" with
  | error e =>
    rw [fetchThrough_of_checkOpen hopen] at h
    obtain ⟨he, ha, hr⟩ := trace_done_iff.1 h
    exact .inl ⟨e, he, ha, hr⟩
  | ok => exact .inr ⟨isOpen_of_checkOpen hphase hopen, trace_fetchThrough_of_open hopen h⟩

theorem moves_add {instructions : List Instruction} (hphase : a.IsIn phase)
    (h : a.add instructions = .ok a') : Moves a instructions [] [] a' := by
  obtain ⟨_, hstage, h⟩ := Except.bind_eq_ok_iff.1 h
  cases h
  have hbuilding : phase = .building := by
    have hmem := expectStage_eq_ok_iff.1 hstage
    rw [hphase.stage_eq, List.mem_singleton] at hmem
    cases phase with
    | building => rfl
    | awaiting | submitted => cases hmem
    | compiled c => cases hcomplete : c.isComplete <;> simp [Phase.stage, hcomplete] at hmem
  exact .add instructions (hbuilding ▸ hphase)

theorem moves_setReference {reference : BlockReference} (hphase : a.IsIn phase)
    (h : a.setReference reference = .ok a') : Moves a [] [reference] [] a' := by
  obtain ⟨_, hopen, hcompile⟩ := Except.bind_eq_ok_iff.1 h
  exact .compile hphase (isOpen_of_checkOpen hphase hopen) hcompile

theorem exists_store_of_addSignature {signer : Address} {signature : Signature}
    (hphase : a.IsIn phase) (h : a.addSignature signer signature = .ok a') :
    ∃ c slot c', phase = .compiled c ∧ c.slotOf signer = .ok slot ∧
      c.store slot signer signature = .ok c' ∧ a' = a.enter (.compiled c') := by
  obtain ⟨_, hstage, h⟩ := Except.bind_eq_ok_iff.1 h
  obtain ⟨slot, hslot, h⟩ := Except.bind_eq_ok_iff.1 h
  have hmem := expectStage_eq_ok_iff.1 hstage
  rw [hphase.stage_eq] at hmem
  obtain ⟨c, rfl⟩ := Phase.stage_mem_compiled_iff.1 hmem
  rw [hphase.slotOf_eq] at hslot
  cases hstore : c.store slot signer signature with
  | error e => cases h.symm.trans (hphase.storeSignature_of_error hstore)
  | ok c' =>
    rw [hphase.storeSignature_of_store hstore] at h
    cases h
    exact ⟨c, slot, c', rfl, hslot, hstore, rfl⟩

theorem moves_addSignature {signer : Address} {signature : Signature} (hphase : a.IsIn phase)
    (h : a.addSignature signer signature = .ok a') : Moves a [] [] [] a' := by
  obtain ⟨c, slot, c', rfl, hslot, hstore, ha⟩ := exists_store_of_addSignature hphase h
  rw [ha]
  exact .sign hphase (.store hslot hstore (.refl c'))

theorem submissions_eq_nil
    (h : ∀ e ∈ exchanges, ∀ wire lastValidHeight, e.query ≠ .submit wire lastValidHeight) :
    submissions exchanges = [] := by
  refine List.filterMap_eq_nil_iff.2 fun e he ↦ ?_
  cases hquery : e.query with
  | submit wire lastValidHeight => exact absurd hquery (h e he wire lastValidHeight)
  | blockReference | account _ | sign _ _ | deviceAddress _ _ => rfl

theorem submissions_append (first rest : List Exchange) :
    submissions (first ++ rest) = submissions first ++ submissions rest :=
  List.filterMap_append

theorem fixed_eq_nil {step : Step} (h : ∀ reference, step.result ≠ some (.ok (some reference))) :
    step.fixed = [] := by
  unfold Step.fixed
  split
  · exact absurd rfl (h _)
  · rfl

theorem map_none_ne {β : Type} {r : Option (Except ClientError β)} {reference : BlockReference} :
    r.map (Except.map fun _ ↦ none) ≠ some (.ok (some reference)) := by
  rcases r with _ | _ | _
  all_goals exact nofun

/-- A step moves an assembler in one of these ways, whatever the outside does. -/
theorem moves_of_trace {operation : Operation}
    {result : Option (Except ClientError (Option BlockReference))}
    (hphase : a.IsIn phase) (h : (operation.act a).Trace exchanges a' result) :
    Moves a (Step.added ⟨operation, exchanges, result⟩) (Step.fixed ⟨operation, exchanges, result⟩)
      (Step.submitted ⟨operation, exchanges, result⟩) a' := by
  cases operation with
  | add instructions =>
    obtain ⟨he, ⟨e, -, ha, hr⟩ | ⟨hok, hr⟩⟩ := trace_map_change_iff.1 h
    · subst he ha hr
      exact .stay
    · subst he hr
      exact moves_add hphase hok
  | setReference reference =>
    obtain ⟨he, ⟨e, -, ha, hr⟩ | ⟨hok, hr⟩⟩ := trace_map_change_iff.1 h
    · subst he ha hr
      exact .stay
    · subst he hr
      exact moves_setReference hphase hok
  | fetchReference cache =>
    obtain ⟨r, hact, hr⟩ := trace_map_iff.1 h
    rcases trace_fetchThrough hphase hact with ⟨e, he, ha, hr'⟩ | ⟨hopen, hqueries, hend⟩
    · subst hr' hr he ha
      exact .stay
    · have hnone : submissions exchanges = [] :=
        submissions_eq_nil fun e he _ _ hsubmit ↦ by
          rw [hqueries e he] at hsubmit
          cases hsubmit
      rw [Step.submitted, hnone]
      rcases hend with ⟨ha, hr'⟩ | ⟨reference, hcompile, hr'⟩
      · have hfixed : Step.fixed ⟨.fetchReference cache, exchanges, result⟩ = [] := by
          refine fixed_eq_nil fun reference hok ↦ ?_
          rcases r with _ | _ | reference
          · exact absurd (hr.symm.trans hok) nofun
          · exact absurd (hr.symm.trans hok) nofun
          · exact hr' reference rfl
        rw [hfixed, ha]
        exact .await hphase hopen
      · subst hr' hr
        exact .compile hphase hopen hcompile
  | addSignature signer signature =>
    obtain ⟨he, ⟨e, -, ha, hr⟩ | ⟨hok, hr⟩⟩ := trace_map_change_iff.1 h
    · subst he ha hr
      exact .stay
    · subst he hr
      exact moves_addSignature hphase hok
  | sign signers =>
    obtain ⟨r, hact, hr⟩ := trace_map_iff.1 h
    rcases trace_sign hphase hact with ⟨e, he, ha, hr'⟩ | ⟨c, c', rfl, hfills, ha, hqueries⟩
    · subst hr' hr he ha
      exact .stay
    · have hnone : submissions exchanges = [] :=
        submissions_eq_nil fun e he _ _ hsubmit ↦ by
          obtain ⟨signer, -, hsign⟩ := hqueries e he
          rw [hsign] at hsubmit
          cases hsubmit
      have hfixed : Step.fixed ⟨.sign signers, exchanges, result⟩ = [] :=
        fixed_eq_nil fun _ hok ↦ map_none_ne (hr.symm.trans hok)
      rw [Step.submitted, hnone, hfixed, ha]
      exact .sign hphase hfills
  | submit =>
    obtain ⟨r, hact, hr⟩ := trace_map_iff.1 h
    rcases trace_submit hphase hact with ⟨e, he, ha, hr'⟩ | ⟨c, wire, answer, rfl, hwire, he, ha⟩
    · subst hr' hr he ha
      exact .stay
    · have hfixed : Step.fixed ⟨.submit, exchanges, result⟩ = [] :=
        fixed_eq_nil fun _ hok ↦ map_none_ne (hr.symm.trans hok)
      rw [Step.submitted, hfixed, ha, he]
      exact .submit hphase hwire

end Assembler

end ValidatorClient
