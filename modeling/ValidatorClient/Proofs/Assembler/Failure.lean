import ValidatorClient.Proofs.Assembler.Asking

namespace ValidatorClient

open Ledger Attempt Process

variable {instructions : List Instruction} {feePayer : Address}

namespace Attempt

variable {σ α β : Type} {s s' : σ} {e : ClientError}

theorem change_of_error {f : σ → Except ClientError σ} (h : f s = .error e) :
    change f s = .done s (.error e) := by
  rw [change, get_bind, ofExcept_bind_of_error _ _ h]

theorem map_of_error {act : Attempt σ α} {f : α → β} (h : act s = .done s' (.error e)) :
    (f <$> act) s = .done s' (.error e) := by
  change Process.bind _ (act s) = _
  rw [h]
  rfl

end Attempt

namespace Compiled

variable {c : Compiled} {stored : List (Address × Signature)}

theorem missingSigners_keeping : (c.keeping stored).missingSigners =
    c.missingSigners.filter fun key ↦ (stored.reverse.lookup key).isNone := by
  suffices h : ∀ (keys : List Address) (slots : List (Option Signature)),
      ((keys.zip (keys.zipWith (fun key slot ↦ (stored.reverse.lookup key).or slot) slots)).filter
        (·.2.isNone)).map (·.1) =
      (((keys.zip slots).filter (·.2.isNone)).map (·.1)).filter fun key ↦
        (stored.reverse.lookup key).isNone from
    h c.message.signerKeys c.slots
  intro keys
  induction keys with
  | nil => exact fun _ ↦ rfl
  | cons key keys ih =>
    intro slots
    cases slots with
    | nil => rfl
    | cons slot slots =>
      cases slot <;> cases hlookup : stored.reverse.lookup key <;> simp [hlookup, ih slots]

theorem isComplete_iff_missing (h : c.message.signerKeys.length = c.slots.length) :
    c.isComplete = true ↔ c.missingSigners = [] := by
  have hslots : (c.message.signerKeys.zip c.slots).map (·.2) = c.slots :=
    List.map_snd_zip (by omega)
  rw [isComplete_iff, missingSigners, List.map_eq_nil_iff, List.filter_eq_nil_iff]
  conv_lhs => rw [← hslots]
  rw [List.forall_mem_map]
  simp [Option.isSome_iff_ne_none]

end Compiled

namespace Assembler

variable {a a' : Assembler} {c c' : Compiled} {exchanges : List Exchange} {steps : List Step}

/-- Only the places change, and the stage with the last place that was empty. -/
def keeping (a : Assembler) (stored : List (Address × Signature)) : Assembler :=
  match a.compiled? with
  | some c => { a with
      compiled? := some (c.keeping stored)
      stage := if (c.keeping stored).isComplete then .readyToSubmit else a.stage }
  | none => a

def IsOpen (a : Assembler) : Prop :=
  (a.stage = .building ∨ a.stage = .awaitingBlockReference) ∧ a.instructions ≠ []

instance : Decidable a.IsOpen := inferInstanceAs (Decidable (_ ∧ _))

/-- What an operation that fails or is given up leaves behind. What was asked only matters for the
signatures that were given. -/
def Operation.leftBehind (a : Assembler) (exchanges : List Exchange) : Operation → Assembler
  | add _ | setReference _ | addSignature _ _ => a
  | fetchReference _ => if a.IsOpen then { a with stage := .awaitingBlockReference } else a
  | sign _ => a.keeping (exchanges.filterMap Exchange.stored?)
  | submit =>
    if a.stage = .readyToSubmit then { a with stage := .submitted, compiled? := none } else a

namespace Operation

def title : Operation → String
  | add _ => "add an instruction"
  | setReference _ => "set a block reference"
  | fetchReference _ => "fetch a block reference"
  | addSignature _ _ => "add a signature"
  | sign _ => "sign"
  | submit => "submit"

def stages : Operation → List Stage
  | add _ => [.building]
  | setReference _ | fetchReference _ => [.building, .awaitingBlockReference]
  | addSignature _ _ | sign _ | submit => [.collectingSignatures, .readyToSubmit]

/-- The operations that are refused before anything is asked, and why. -/
inductive Refused (a : Assembler) : Operation → ClientError → Prop
  | wrongStage {operation : Operation} (h : a.stage ∉ operation.stages) :
      Refused a operation (.invalidState (.wrongStage operation.title a.stage))
  | noInstructions {operation : Operation} (hstage : a.stage ∈ operation.stages)
      (hoperation : (∃ reference, operation = setReference reference) ∨
        ∃ cache, operation = fetchReference cache)
      (h : a.instructions = []) : Refused a operation (.invalidState .noInstructions)
  | uncompiled {reference : BlockReference} {e : ClientError} (hopen : a.IsOpen)
      (h : a.compile reference = .error e) : Refused a (setReference reference) e
  | unknownKey {bytes : Bytes} {key : Address} (signature : Signature)
      (hbytes : a.messageBytes = .ok bytes)
      (h : key ∉ a.requiredSigners) : Refused a (addSignature key signature) (.unknownSigner key)
  | wrongSignature {bytes : Bytes} {key : Address} {signature : Signature}
      (hbytes : a.messageBytes = .ok bytes)
      (hkey : key ∈ a.requiredSigners) (h : key.verifies bytes signature = false) :
      Refused a (addSignature key signature) (.signerRejected (.wrongSignature key))
  | unknownSigner {bytes : Bytes} {before : List Signer} {signer : Signer} (after : List Signer)
      (hbytes : a.messageBytes = .ok bytes) (hbefore : ∀ s ∈ before, s.address ∈ a.requiredSigners)
      (h : signer.address ∉ a.requiredSigners) :
      Refused a (sign (before ++ signer :: after)) (.unknownSigner signer.address)
  | incomplete (h : a.missingSigners ≠ []) :
      Refused a submit (.incompleteSignatures a.missingSigners.length a.requiredSigners.length)

end Operation

section Stage

theorem checkOpen_of_isOpen (h : a.IsOpen) (operation : String) :
    a.checkOpen operation = .ok () :=
  checkOpen_eq_ok_iff.2 ⟨by simpa using h.1, h.2⟩

theorem checkOpen_of_empty (hstage : a.stage ∈ [.building, .awaitingBlockReference])
    (h : a.instructions = []) (operation : String) :
    a.checkOpen operation = .error (.invalidState .noInstructions) := by
  rw [checkOpen, expectStage_of_mem hstage, h]
  rfl

theorem checkOpen_of_stage (h : a.stage ∉ [.building, .awaitingBlockReference])
    (operation : String) :
    a.checkOpen operation = .error (.invalidState (.wrongStage operation a.stage)) :=
  Except.bind_eq_error_iff.2 (.inl (expectStage_of_notMem h))

end Stage

section Refusal

theorem setReference_of_checkOpen {reference : BlockReference} {e : ClientError}
    (h : a.checkOpen "set a block reference" = .error e) : a.setReference reference = .error e :=
  Except.bind_eq_error_iff.2 (.inl h)

theorem act_of_wrongStage {operation : Operation} (h : a.stage ∉ operation.stages) :
    operation.act a =
      .done a (.error (.invalidState (.wrongStage operation.title a.stage))) := by
  cases operation with
  | add instructions =>
    refine map_of_error (change_of_error (Except.bind_eq_error_iff.2 (.inl ?_)))
    exact expectStage_of_notMem h
  | setReference reference =>
    exact map_of_error (change_of_error (setReference_of_checkOpen (checkOpen_of_stage h _)))
  | fetchReference cache => exact map_of_error (fetchThrough_of_checkOpen (checkOpen_of_stage h _))
  | addSignature signer signature =>
    refine map_of_error (change_of_error (Except.bind_eq_error_iff.2 (.inl ?_)))
    exact expectStage_of_notMem h
  | sign signers => exact map_of_error (sign_of_stage h)
  | submit => exact map_of_error (submit_of_stage h)

theorem Run.act_of_refused (hrun : Run feePayer steps a) {operation : Operation} {e : ClientError}
    (h : operation.Refused a e) : operation.act a = .done a (.error e) := by
  cases h with
  | wrongStage h => exact act_of_wrongStage h
  | noInstructions hstage hoperation h =>
    rcases hoperation with ⟨reference, rfl⟩ | ⟨cache, rfl⟩
    · exact map_of_error (change_of_error
        (setReference_of_checkOpen (checkOpen_of_empty hstage h _)))
    · exact map_of_error (fetchThrough_of_checkOpen (checkOpen_of_empty hstage h _))
  | uncompiled hopen h =>
    refine map_of_error (change_of_error (Except.bind_eq_error_iff.2 (.inr ⟨(), ?_, h⟩)))
    exact checkOpen_of_isOpen hopen _
  | unknownKey signature hbytes h =>
    obtain ⟨c, hphase, -, hrequired⟩ := hrun.exists_of_messageBytes hbytes
    refine map_of_error (change_of_error (hphase.addSignature_of_error ?_))
    rw [hrequired] at h
    rw [Compiled.slotOf, List.idxOf?_eq_none_iff.2 h]
  | wrongSignature hbytes hkey h =>
    obtain ⟨c, hphase, rfl, hrequired⟩ := hrun.exists_of_messageBytes hbytes
    obtain ⟨slot, hslot⟩ := exists_slotOf (hrequired ▸ hkey)
    refine map_of_error (change_of_error ((hphase.addSignature_of_slot hslot).trans
      (hphase.storeSignature_of_error ?_)))
    rw [Compiled.store, if_neg (by simp [h])]
  | unknownSigner after hbytes hbefore h =>
    obtain ⟨c, hphase, -, hrequired⟩ := hrun.exists_of_messageBytes hbytes
    rw [hrequired] at hbefore h
    exact map_of_error (sign_of_plan_error hphase (plan_of_unknown after hbefore h))
  | incomplete h =>
    refine map_of_error ?_
    obtain ⟨phase, hphase⟩ := hrun.exists_phase
    cases phase with
    | compiled c =>
      rw [hphase.missingSigners_eq] at h ⊢
      rw [hphase.requiredSigners_eq]
      exact submit_of_wire_error hphase
        (Compiled.wire_of_missing (hrun.sound hphase).length_slots.1 h)
    | building | awaiting | submitted =>
      rw [missingSigners, hphase.compiled?_eq] at h
      exact absurd rfl h

end Refusal

section Left

theorem checkOpen_of_not_isOpen (h : ¬ a.IsOpen) (operation : String) :
    ∃ e, a.checkOpen operation = .error e := by
  cases hopen : a.checkOpen operation with
  | error e => exact ⟨e, rfl⟩
  | ok =>
    obtain ⟨hstage, hinstructions⟩ := checkOpen_eq_ok_iff.1 hopen
    exact absurd ⟨by simpa using hstage, hinstructions⟩ h

/-- The cache is turned to only after the stage has changed, and that is all that has changed until
it answers. -/
theorem fetchReference_of_isOpen (h : a.IsOpen) :
    ∃ next : BlockReference → Attempt (Assembler × BlockhashCache) BlockReference, ∀ cache,
      fetchReference (a, cache) =
        (Attempt.onRight BlockhashCache.fetch >>= next)
          ({ a with stage := .awaitingBlockReference }, cache) := by
  refine ⟨fun reference ↦ do
    let s ← get
    let a ← Attempt.ofExcept (s.1.compile reference)
    set (a, s.2)
    return reference, fun cache ↦ ?_⟩
  rw [fetchReference, get_bind]
  dsimp only
  rw [ofExcept_bind_of_ok _ _ (checkOpen_of_isOpen h _), modify_bind]

theorem fetchReference_again (h : a.IsOpen) (cache : BlockhashCache) :
    fetchReference ({ a with stage := .awaitingBlockReference }, cache) =
      fetchReference (a, cache) := by
  have hagain : IsOpen { a with stage := .awaitingBlockReference } := ⟨.inr rfl, h.2⟩
  rw [fetchReference, get_bind, get_bind]
  dsimp only
  rw [ofExcept_bind_of_ok _ _ (checkOpen_of_isOpen h _),
    ofExcept_bind_of_ok _ _ (checkOpen_of_isOpen hagain _)]
  rfl

theorem keeping_of_isIn {stored : List (Address × Signature)} (hphase : a.IsIn (.compiled c))
    (hlength : c.message.signerKeys.length = c.slots.length) :
    a.keeping stored = a.enter (.compiled (c.keeping stored)) := by
  have hfilled : c.isComplete = true → (c.keeping stored).isComplete = true := by
    rw [Compiled.isComplete_iff_missing hlength,
      Compiled.isComplete_iff_missing (by simp [Compiled.keeping, hlength]),
      Compiled.missingSigners_keeping]
    intro hmissing
    rw [hmissing, List.filter_nil]
  rw [keeping, hphase.compiled?_eq]
  dsimp only [Phase.compiled?]
  rw [hphase.stage_of_imp hfilled]
  rfl

theorem Run.keeping_of_trace {signers : List Signer} {r : Option (Except ClientError Unit)}
    (hrun : Run feePayer steps a) (h : (sign signers a).Trace exchanges a' r) :
    a' = a.keeping (exchanges.filterMap Exchange.stored?) := by
  obtain ⟨phase, hphase⟩ := hrun.exists_phase
  cases phase with
  | compiled c =>
    have hsound := hrun.sound hphase
    have hlength := hsound.length_slots.1
    rw [keeping_of_isIn hphase hlength]
    rcases trace_sign_of_compiled hphase h with
      ⟨-, -, -, rfl, rfl, -⟩ | ⟨planned, c', -, hslots, hsigns, rfl⟩
    · rw [List.filterMap_nil, Compiled.keeping_nil hlength, hphase.enter_eq]
    · rw [hsigns.eq_keeping hsound hslots]
  | building | awaiting | submitted =>
    rw [keeping, hphase.compiled?_eq]
    rcases trace_sign hphase h with ⟨_, -, ha, -⟩ | ⟨_, _, hcompiled, -⟩
    · exact ha
    · cases hcompiled

theorem IsIn.ready_iff_missing (hphase : a.IsIn (.compiled c))
    (hlength : c.message.signerKeys.length = c.slots.length) :
    a.stage = .readyToSubmit ↔ c.missingSigners = [] := by
  rw [← Compiled.isComplete_iff_missing hlength, hphase.stage_eq, Phase.stage]
  cases c.isComplete <;> simp

theorem Run.submitted_of_trace {r : Option (Except ClientError Submission)}
    (hrun : Run feePayer steps a) (h : (submit a).Trace exchanges a' r) :
    a' = if a.stage = .readyToSubmit then
      { a with stage := .submitted, compiled? := none } else a := by
  obtain ⟨phase, hphase⟩ := hrun.exists_phase
  cases phase with
  | compiled c =>
    have hsound := hrun.sound hphase
    have hready := hphase.ready_iff_missing hsound.length_slots.1
    by_cases hmissing : c.missingSigners = []
    · obtain ⟨wire, hwire⟩ := hsound.exists_wire hmissing
      rw [if_pos (hready.2 hmissing)]
      rw [submit_of_wire hphase hwire] at h
      rcases trace_wait_iff.1 h with ⟨-, ha, -⟩ | ⟨answer, rest, -, h⟩
      · exact ha
      · exact (trace_done_iff.1 h).2.1
    · rw [if_neg (mt hready.1 hmissing)]
      rw [submit_of_wire_error hphase
        (Compiled.wire_of_missing hsound.length_slots.1 hmissing)] at h
      exact (trace_done_iff.1 h).2.1
  | building | awaiting | submitted =>
    rw [if_neg (by simp [hphase.stage_eq, Phase.stage])]
    rcases trace_submit hphase h with ⟨_, -, ha, -⟩ | ⟨_, _, _, hcompiled, -⟩
    · exact ha
    · cases hcompiled

theorem Run.eq_leftBehind {operation : Operation}
    {result : Option (Except ClientError (Option BlockReference))} (hrun : Run feePayer steps a)
    (h : (operation.act a).Trace exchanges a' result) (hresult : ∀ x, result ≠ some (.ok x)) :
    a' = operation.leftBehind a exchanges := by
  cases operation with
  | add | setReference | addSignature =>
    obtain ⟨-, ⟨e, -, ha, -⟩ | ⟨-, hr⟩⟩ := trace_map_change_iff.1 h
    · exact ha
    · exact absurd hr (hresult _)
  | fetchReference cache =>
    obtain ⟨r, hact, rfl⟩ := trace_map_iff.1 h
    by_cases hopen : a.IsOpen
    · rw [Operation.leftBehind, if_pos hopen]
      obtain ⟨-, ⟨ha, -⟩ | ⟨reference, -, rfl⟩⟩ :=
        trace_fetchThrough_of_open (checkOpen_of_isOpen hopen _) hact
      · exact ha
      · exact absurd rfl (hresult _)
    · obtain ⟨e, he⟩ := checkOpen_of_not_isOpen hopen "fetch a block reference"
      rw [fetchThrough_of_checkOpen he] at hact
      rw [Operation.leftBehind, if_neg hopen]
      exact (trace_done_iff.1 hact).2.1
  | sign signers =>
    obtain ⟨r, hact, -⟩ := trace_map_iff.1 h
    exact hrun.keeping_of_trace hact
  | submit =>
    obtain ⟨r, hact, -⟩ := trace_map_iff.1 h
    exact hrun.submitted_of_trace hact

end Left

section Given

variable {planned : List Planned} {r : Option (Except ClientError Unit)}

theorem Signs.exists_given (h : Signs planned c exchanges c' r) (hr : r ≠ some (.ok ())) :
    ∃ (given : List (Signer × Signature)) (failing : Signer) (rest : List Signer)
      (answer : Option (Query.sign failing c.bytes).Answer),
      planned.map (·.signer) = given.map (·.1) ++ failing :: rest ∧
      exchanges = given.map (fun p ↦ ⟨.sign p.1 c.bytes, some (Except.ok p.2)⟩) ++
        [⟨.sign failing c.bytes, answer⟩] ∧
      (∀ p ∈ given, p.1.address.verifies c.bytes p.2 = true) ∧
        Ends ⟨.sign failing c.bytes, answer⟩ r := by
  induction h with
  | done => exact absurd rfl hr
  | givenUp p rest =>
    exact ⟨[], p.signer, rest.map (·.signer), none, rfl, rfl, by simp, .givenUp _ _⟩
  | refused p rest _ e =>
    exact ⟨[], p.signer, rest.map (·.signer), _, rfl, rfl, by simp, .refused _ _ e⟩
  | @wrong p _ _ rest h => exact ⟨[], p.signer, rest.map (·.signer), _, rfl, rfl, by simp, .wrong h⟩
  | @stored p _ c _ _ signature _ _ hstore _ ih =>
    obtain ⟨hverifies, rfl⟩ := Compiled.store_eq_ok_iff.1 hstore
    obtain ⟨given, failing, rest, answer, hplanned, hexchanges, hgiven, hends⟩ := ih hr
    refine ⟨(p.signer, signature) :: given, failing, rest, answer, ?_, ?_, ?_, hends⟩
    · rw [List.map_cons, hplanned]
      rfl
    · rw [hexchanges]
      rfl
    · exact List.forall_mem_cons.2 ⟨hverifies, hgiven⟩

theorem filterMap_stored?_given {given : List (Signer × Signature)} {bytes : Bytes} {e : Exchange}
    (h : ∀ p ∈ given, p.1.address.verifies bytes p.2 = true) (hends : Ends e r) :
    (given.map (fun p ↦ (⟨.sign p.1 bytes, some (Except.ok p.2)⟩ : Exchange)) ++ [e]).filterMap
      Exchange.stored? =
      given.map fun p ↦ (p.1.address, p.2) := by
  rw [List.filterMap_append, List.filterMap_cons_none hends.stored?_eq_none, List.filterMap_nil,
    List.append_nil]
  induction given with
  | nil => rfl
  | cons p given ih =>
    rw [List.forall_mem_cons] at h
    rw [List.map_cons, List.filterMap_cons_some (Exchange.stored?_of_verifies h.1), ih h.2,
      List.map_cons]

theorem stage_keeping_iff (hphase : a.IsIn (.compiled c))
    (hsound : c.Sound instructions feePayer) {stored : List (Address × Signature)} :
    (a.keeping stored).stage = .readyToSubmit ↔ a.stage = .readyToSubmit ∨
      a.missingSigners ≠ [] ∧ ∀ key ∈ a.missingSigners, key ∈ stored.map (·.1) := by
  have hlength := hsound.length_slots.1
  have hkept : (c.keeping stored).message.signerKeys.length = (c.keeping stored).slots.length := by
    simp [Compiled.keeping, hlength]
  rw [keeping_of_isIn hphase hlength, (isIn_enter a _).ready_iff_missing hkept,
    hphase.ready_iff_missing hlength, hphase.missingSigners_eq, Compiled.missingSigners_keeping,
    List.filter_eq_nil_iff]
  simp only [Option.isNone_iff_eq_none, ← Ne.eq_def, lookup_reverse_ne_none_iff]
  by_cases hnil : c.missingSigners = []
  · simp [hnil]
  · simp [hnil]

end Given

/-- What is left of a state if something fails there. -/
structure LeavesBehind (a : Assembler) : Prop where
  refused : ∀ operation e, Operation.Refused a operation e → operation.act a = .done a (.error e)
  left :
    ∀ (operation : Operation) exchanges a' result, (operation.act a).Trace exchanges a' result →
    (∀ x, result ≠ some (.ok x)) → a' = operation.leftBehind a exchanges
  fetches :
    a.IsOpen →
    ∃ next : BlockReference → Attempt (Assembler × BlockhashCache) BlockReference, ∀ cache,
      fetchReference (a, cache) =
        (Attempt.onRight BlockhashCache.fetch >>= next)
          ({ a with stage := .awaitingBlockReference }, cache) ∧
      fetchReference ({ a with stage := .awaitingBlockReference }, cache) =
        fetchReference (a, cache)
  signs : ∀ signers bytes exchanges a' r, a.messageBytes = .ok bytes →
    (∀ signer ∈ signers, signer.address ∈ a.requiredSigners) →
    (sign signers a).Trace exchanges a' r → r ≠ some (.ok ()) →
      ∃ (given : List (Signer × Signature)) (failing : Signer) (rest : List Signer)
        (answer : Option (Query.sign failing bytes).Answer),
      signingOrder a.requiredSigners signers = given.map (·.1) ++ failing :: rest ∧
      exchanges = given.map (fun p ↦ ⟨.sign p.1 bytes, some (Except.ok p.2)⟩) ++
        [⟨.sign failing bytes, answer⟩] ∧
      (∀ p ∈ given, p.1.address.verifies bytes p.2 = true) ∧ Ends ⟨.sign failing bytes, answer⟩ r ∧
      a' = a.keeping (given.map fun p ↦ (p.1.address, p.2)) ∧
      (a'.stage = .readyToSubmit ↔ a.stage = .readyToSubmit ∨
        a.missingSigners ≠ [] ∧ ∀ key ∈ a.missingSigners, key ∈ given.map (·.1.address))
  submits : a.stage = .readyToSubmit → ∀ exchanges a' r, (submit a).Trace exchanges a' r →
    a' = { a with stage := .submitted, compiled? := none }

/-- In every state that an assembler can come to, an operation that is refused changes nothing, and
one that fails later or is given up changes only what it has to. -/
theorem Run.leavesBehind (hrun : Run feePayer steps a) : a.LeavesBehind where
  refused _ _ := hrun.act_of_refused
  left _ _ _ _ := hrun.eq_leftBehind
  fetches h := by
    obtain ⟨next, hnext⟩ := fetchReference_of_isOpen h
    exact ⟨next, fun cache ↦ ⟨hnext cache, fetchReference_again h cache⟩⟩
  signs := by
    intro signers bytes exchanges a' r hbytes hall h hr
    obtain ⟨c, hphase, rfl, hrequired⟩ := hrun.exists_of_messageBytes hbytes
    have hsound := hrun.sound hphase
    obtain ⟨planned, hplan⟩ := exists_plan (hrequired ▸ hall)
    have ha := hrun.keeping_of_trace h
    rw [sign_of_plan hphase hplan] at h
    obtain ⟨c', hsigns, -⟩ := signs_of_trace hphase h
    obtain ⟨given, failing, rest, answer, hplanned, hexchanges, hgiven, hends⟩ :=
      hsigns.exists_given hr
    rw [hexchanges, filterMap_stored?_given hgiven hends] at ha
    refine ⟨given, failing, rest, answer, ?_, hexchanges, hgiven, hends, ha, ?_⟩
    · rw [hrequired, ← signers_of_plan (Message.nodup_signerKeys hsound.compiles) hplan, hplanned]
    · rw [ha, stage_keeping_iff hphase hsound, List.map_map]
      rfl
  submits h exchanges a' r htrace := by
    rw [hrun.submitted_of_trace htrace, if_pos h]

theorem Run.leavesBehind_device :
    ∃ (key : Address) (signature : Signature) (steps : List Step) (a a' : Assembler),
    Run key steps a ∧ Operation.submit.act a = .done a (.error (.incompleteSignatures 1 1)) ∧
    a' = a.keeping [(key, signature)] ∧ a'.stage = .readyToSubmit := by
  obtain ⟨key, signature, bytes, steps, a, a', -, hrun, hbytes, hrequired, hmissing, htrace⟩ :=
    exists_refusing_device
  have hleaves := Run.leavesBehind hrun
  have hrefused := hleaves.refused _ _ (.incomplete (by simp [hmissing]))
  rw [hmissing, hrequired] at hrefused
  obtain ⟨given, failing, rest, answer, -, hexchanges, -, -, ha, hstage⟩ :=
    hleaves.signs _ _ _ _ _ hbytes (by simp [hrequired]) htrace nofun
  have hgiven : [_] ++ [_] = given.map _ ++ [_] := hexchanges
  obtain ⟨⟨payer, given⟩, rfl, hpayer⟩ :=
    List.map_eq_singleton_iff.1 (List.append_singleton_inj.1 hgiven).1.symm
  cases hpayer
  exact ⟨key, given, steps, a, a', hrun, hrefused, ha, hstage.2 (.inr (by simp [hmissing]))⟩

end Assembler

end ValidatorClient
