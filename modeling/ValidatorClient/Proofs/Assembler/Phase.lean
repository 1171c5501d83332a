import ValidatorClient.Assembler
import ValidatorClient.Proofs.Except

namespace ValidatorClient

open Ledger

namespace Compiled

variable {c c' : Compiled} {slot : Nat} {signer : Address} {signature : Signature}

theorem slotOf_eq_error {e : ClientError} (h : c.slotOf signer = .error e) :
    signer ∉ c.message.signerKeys ∧ e = .unknownSigner signer := by
  unfold slotOf at h
  cases hfound : c.message.signerKeys.idxOf? signer with
  | some slot =>
    rw [hfound] at h
    cases h
  | none =>
    rw [hfound] at h
    cases h
    exact ⟨List.idxOf?_eq_none_iff.1 hfound, rfl⟩

theorem store_eq_ok_iff :
    c.store slot signer signature = .ok c' ↔
      signer.verifies c.bytes signature = true ∧
        c' = { c with slots := c.slots.set slot (some signature) } := by
  unfold store
  by_cases h : signer.verifies c.bytes signature = true
  · rw [if_pos h, Except.ok.injEq]
    exact ⟨fun hc ↦ ⟨h, hc.symm⟩, fun hc ↦ hc.2.symm⟩
  · simp [h]

theorem store_eq_error {e : ClientError} (h : c.store slot signer signature = .error e) :
    signer.verifies c.bytes signature = false ∧ e = .signerRejected (.wrongSignature signer) := by
  unfold store at h
  by_cases hverifies : signer.verifies c.bytes signature = true
  · rw [if_pos hverifies] at h
    cases h
  · rw [if_neg hverifies] at h
    cases h
    exact ⟨Bool.eq_false_iff.2 hverifies, rfl⟩

theorem slotOf_of_store (h : c.store slot signer signature = .ok c') : c'.slotOf = c.slotOf := by
  rw [(store_eq_ok_iff.1 h).2]
  rfl

theorem bytes_of_store (h : c.store slot signer signature = .ok c') : c'.bytes = c.bytes := by
  rw [(store_eq_ok_iff.1 h).2]

theorem isComplete_iff : c.isComplete = true ↔ ∀ slot ∈ c.slots, slot.isSome = true := by
  rw [isComplete, List.all_eq_true]

theorem isComplete_of_store (h : c.store slot signer signature = .ok c')
    (hcomplete : c.isComplete = true) : c'.isComplete = true := by
  refine isComplete_iff.2 fun other hother ↦ ?_
  rw [(store_eq_ok_iff.1 h).2] at hother
  rcases List.mem_or_eq_of_mem_set hother with hold | hnew
  · exact isComplete_iff.1 hcomplete other hold
  · rw [hnew]
    rfl

/-- Some signatures were stored, one after the other, each in the place of its signer. -/
inductive Fills : Compiled → Compiled → Prop
  | refl (c : Compiled) : Fills c c
  | store {c c' c'' : Compiled} {slot : Nat} {signer : Address} {signature : Signature}
      (hslot : c.slotOf signer = .ok slot) (hstore : c.store slot signer signature = .ok c')
      (h : Fills c' c'') : Fills c c''

theorem Fills.exists_slots (h : c.Fills c') : ∃ slots, c' = { c with slots := slots } := by
  induction h with
  | refl c => exact ⟨c.slots, rfl⟩
  | store _ hstore _ ih =>
    obtain ⟨slots, hc⟩ := ih
    rw [(store_eq_ok_iff.1 hstore).2] at hc
    exact ⟨slots, hc⟩

theorem Fills.isComplete (h : c.Fills c') (hcomplete : c.isComplete = true) :
    c'.isComplete = true := by
  induction h with
  | refl c => exact hcomplete
  | store _ hstore _ ih => exact ih (isComplete_of_store hstore hcomplete)

end Compiled

/-- How far a transaction has come, with its message as long as there is one. -/
inductive Phase where
  | building
  | awaiting
  | compiled (c : Compiled)
  | submitted

namespace Phase

def stage : Phase → Stage
  | building => .building
  | awaiting => .awaitingBlockReference
  | compiled c => if c.isComplete then .readyToSubmit else .collectingSignatures
  | submitted => .submitted

def compiled? : Phase → Option Compiled
  | compiled c => some c
  | building | awaiting | submitted => none

def IsOpen (phase : Phase) : Prop := phase = building ∨ phase = awaiting

variable {phase : Phase}

theorem stage_mem_open_iff :
    phase.stage ∈ [.building, .awaitingBlockReference] ↔ phase.IsOpen := by
  cases phase with
  | building | awaiting | submitted => simp [stage, IsOpen]
  | compiled c => cases hcomplete : c.isComplete <;> simp [stage, IsOpen, hcomplete]

theorem stage_mem_compiled_iff :
    phase.stage ∈ [.collectingSignatures, .readyToSubmit] ↔ ∃ c, phase = compiled c := by
  cases phase with
  | building | awaiting | submitted => simp [stage]
  | compiled c => cases hcomplete : c.isComplete <;> simp [stage, hcomplete]

end Phase

namespace Assembler

/-- The stage is the one of the phase, and the message is there exactly if the phase has it. Nothing
in the type of an assembler says so of any phase. -/
structure IsIn (a : Assembler) (phase : Phase) : Prop where
  stage_eq : a.stage = phase.stage
  compiled?_eq : a.compiled? = phase.compiled?

def enter (a : Assembler) (phase : Phase) : Assembler :=
  { a with stage := phase.stage, compiled? := phase.compiled? }

variable {a : Assembler} {phase phase' : Phase} {c c' : Compiled} {allowed : List Stage}
  {operation : String} {slot : Nat} {signer : Address} {signature : Signature}

theorem isIn_enter (a : Assembler) (phase : Phase) : (a.enter phase).IsIn phase := ⟨rfl, rfl⟩

theorem isIn_start (feePayer : Address) : (start feePayer).IsIn .building := ⟨rfl, rfl⟩

theorem IsIn.enter_eq (h : a.IsIn phase) : a.enter phase = a := by
  rw [enter, ← h.stage_eq, ← h.compiled?_eq]

theorem IsIn.unique (h : a.IsIn phase) (h' : a.IsIn phase') : phase = phase' := by
  have hstage := h.stage_eq.symm.trans h'.stage_eq
  have hcompiled := h.compiled?_eq.symm.trans h'.compiled?_eq
  cases phase <;> cases phase' <;> simp_all [Phase.stage, Phase.compiled?]

theorem expectStage_of_mem (h : a.stage ∈ allowed) : a.expectStage allowed operation = .ok () :=
  if_pos h

theorem expectStage_of_notMem (h : a.stage ∉ allowed) : a.expectStage allowed operation =
    .error (.invalidState (.wrongStage operation a.stage)) :=
  if_neg h

theorem expectStage_eq_ok_iff : a.expectStage allowed operation = .ok () ↔ a.stage ∈ allowed := by
  refine ⟨fun h ↦ ?_, expectStage_of_mem⟩
  by_contra hnot
  cases h.symm.trans (expectStage_of_notMem hnot)

theorem checkOpen_eq_ok_iff : a.checkOpen operation = .ok () ↔
    a.stage ∈ [.building, .awaitingBlockReference] ∧ a.instructions ≠ [] := by
  rw [checkOpen, Except.then_eq_ok_iff, expectStage_eq_ok_iff]
  cases a.instructions <;> simp [pure, Except.pure]

theorem isOpen_of_checkOpen (hphase : a.IsIn phase) (h : a.checkOpen operation = .ok ()) :
    phase.IsOpen := by
  have hstage := (checkOpen_eq_ok_iff.1 h).1
  rwa [hphase.stage_eq, Phase.stage_mem_open_iff] at hstage

section Compiled

variable (h : a.IsIn (.compiled c))
include h

theorem IsIn.stage_mem : a.stage ∈ [.collectingSignatures, .readyToSubmit] := by
  rw [h.stage_eq]
  exact Phase.stage_mem_compiled_iff.2 ⟨c, rfl⟩

theorem IsIn.compiled_eq : a.compiled = .ok c := by
  rw [Assembler.compiled, h.compiled?_eq]
  rfl

theorem IsIn.messageBytes_eq : a.messageBytes = .ok c.bytes := by
  rw [messageBytes, h.compiled_eq]
  rfl

theorem IsIn.serialize_eq : a.serialize = c.wire := by
  rw [serialize, h.compiled_eq]
  rfl

theorem IsIn.requiredSigners_eq : a.requiredSigners = c.message.signerKeys := by
  rw [requiredSigners, h.compiled?_eq]
  rfl

theorem IsIn.missingSigners_eq : a.missingSigners = c.missingSigners := by
  rw [missingSigners, h.compiled?_eq]
  rfl

theorem IsIn.signatures_eq : a.signatures = c.slots := by
  rw [signatures, h.compiled?_eq]
  rfl

theorem IsIn.slotOf_eq : a.slotOf = c.slotOf := by
  funext signer
  rw [Assembler.slotOf, h.compiled?_eq]
  rfl

/-- A stage that is set only when the last place has been filled is what it has to be. -/
theorem IsIn.stage_of_imp (hfilled : c.isComplete = true → c'.isComplete = true) :
    (if c'.isComplete then .readyToSubmit else a.stage) = (Phase.compiled c').stage := by
  cases hcomplete : c'.isComplete with
  | true => simp [Phase.stage, hcomplete]
  | false =>
    have hbefore : c.isComplete = false := by
      rw [Bool.eq_false_iff]
      intro hbefore
      cases (hfilled hbefore).symm.trans hcomplete
    simp [Phase.stage, hcomplete, h.stage_eq, hbefore]

theorem IsIn.storeSignature_of_store (hstore : c.store slot signer signature = .ok c') :
    a.storeSignature slot signer signature = .ok (a.enter (.compiled c')) := by
  refine Except.bind_eq_ok_iff.2 ⟨c, h.compiled_eq, Except.bind_eq_ok_iff.2 ⟨c', hstore, ?_⟩⟩
  rw [h.stage_of_imp (Compiled.isComplete_of_store hstore)]
  rfl

theorem IsIn.storeSignature_of_error {e : ClientError}
    (hstore : c.store slot signer signature = .error e) :
    a.storeSignature slot signer signature = .error e :=
  Except.bind_eq_error_iff.2 (.inr ⟨c, h.compiled_eq, Except.bind_eq_error_iff.2 (.inl hstore)⟩)

theorem IsIn.addSignature_of_slot (hslot : c.slotOf signer = .ok slot) :
    a.addSignature signer signature = a.storeSignature slot signer signature := by
  rw [addSignature, expectStage_of_mem h.stage_mem, h.slotOf_eq, hslot]
  rfl

theorem IsIn.addSignature_of_error {e : ClientError} (hslot : c.slotOf signer = .error e) :
    a.addSignature signer signature = .error e := by
  rw [addSignature, expectStage_of_mem h.stage_mem, h.slotOf_eq, hslot]
  rfl

end Compiled

end Assembler

end ValidatorClient
