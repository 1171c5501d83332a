import Mathlib.Data.List.Range
import ValidatorClient.Proofs.Assembler.Submission

namespace ValidatorClient

open Ledger Attempt Process

def Stage.rank : Stage → Nat
  | .building => 0
  | .awaitingBlockReference => 1
  | .collectingSignatures => 2
  | .readyToSubmit => 3
  | .submitted => 4

/-- The keys whose place is empty, in the order of the places. -/
def emptyPlaces {α β : Type} (keys : List α) (slots : List (Option β)) : List α :=
  (List.range keys.length).filterMap fun i ↦
    match slots[i]? with
    | some none => keys[i]?
    | _ => none

section EmptyPlaces

variable {α β : Type} {keys : List α} {slots : List (Option β)}

theorem emptyPlaces_cons (key : α) (keys : List α) (slot : Option β) (slots : List (Option β)) :
    emptyPlaces (key :: keys) (slot :: slots) =
      if slot.isNone then key :: emptyPlaces keys slots else emptyPlaces keys slots := by
  unfold emptyPlaces
  rw [List.length_cons, List.range_succ_eq_map, List.filterMap_cons, List.filterMap_map]
  cases slot <;> simp

theorem emptyPlaces_eq (h : keys.length = slots.length) :
    ((keys.zip slots).filter (·.2.isNone)).map (·.1) = emptyPlaces keys slots := by
  induction keys generalizing slots with
  | nil => rfl
  | cons key keys ih =>
    cases slots with
    | nil => cases h
    | cons slot slots =>
      rw [emptyPlaces_cons, ← ih (Nat.succ.inj h)]
      cases slot <;> simp

theorem length_filter_zip (h : keys.length = slots.length) :
    ((keys.zip slots).filter (·.2.isNone)).length = slots.countP (·.isNone) := by
  rw [← List.countP_eq_length_filter]
  have hslots : (keys.zip slots).map (·.2) = slots := List.map_snd_zip (by omega)
  conv_rhs => rw [← hslots, List.countP_map]
  rfl

end EmptyPlaces

namespace Compiled

variable {c c' : Compiled} {instructions : List Instruction} {feePayer : Address}

section Places

variable (h : c.message.signerKeys.length = c.slots.length)
include h

theorem length_missingSigners :
    c.missingSigners.length + (c.slots.filterMap id).length = c.slots.length := by
  have hcount := List.length_eq_countP_add_countP (·.isSome) (l := c.slots)
  have hfilled : (c.slots.filterMap id).length = c.slots.countP (·.isSome) :=
    List.length_filterMap_eq_countP
  have hempty :
      c.slots.countP (fun slot ↦ decide ¬ slot.isSome = true) = c.slots.countP (·.isNone) :=
    List.countP_congr fun slot _ ↦ by simp
  rw [missingSigners, List.length_map, length_filter_zip h, hfilled]
  omega

theorem wire_of_missing (hmissing : c.missingSigners ≠ []) :
    c.wire =
      .error (.incompleteSignatures c.missingSigners.length c.message.signerKeys.length) := by
  have hlength := length_missingSigners h
  have hpos := List.length_pos_of_ne_nil hmissing
  have hdiff : c.slots.length - (c.slots.filterMap id).length = c.missingSigners.length := by omega
  unfold Compiled.wire
  rw [if_pos (by omega), hdiff, h]

end Places

theorem Sound.exists_wire (h : c.Sound instructions feePayer) (hcomplete : c.missingSigners = []) :
    ∃ wire, c.wire = .ok wire := by
  obtain ⟨hkeys, -, hlt⟩ := h.length_slots
  have hlength := length_missingSigners hkeys
  rw [hcomplete, List.length_nil, Nat.zero_add] at hlength
  have hserialize : Wire.serialize (c.slots.filterMap id) c.bytes = .ok _ :=
    Wire.serialize_eq_ok_iff.2 ⟨by omega, rfl⟩
  exact ⟨_, wire_eq_ok_iff.2 ⟨_, eq_map_some_filterMap hlength, hserialize⟩⟩

end Compiled

namespace Assembler

variable {feePayer : Address} {steps : List Step} {a a' : Assembler} {phase : Phase} {c : Compiled}

/-- What is known of an assembler from one look at it. -/
structure Coherent (a : Assembler) : Prop where
  compiled_iff :
    a.compiled?.isSome = true ↔ a.stage = .collectingSignatures ∨ a.stage = .readyToSubmit
  places : a.compiled?.isSome = true →
    a.signatures.length = a.requiredSigners.length ∧ 0 < a.signatures.length
  ready_iff : a.stage = .readyToSubmit ↔
    a.compiled?.isSome = true ∧ ∀ slot ∈ a.signatures, slot.isSome = true
  verifies : ∀ (bytes : Bytes) (i : Nat) (signature : Signature), a.messageBytes = .ok bytes →
    a.signatures[i]? = some (some signature) →
    ∃ key : Address, a.requiredSigners[i]? = some key ∧ key.verifies bytes signature = true
  missing : a.missingSigners = emptyPlaces a.requiredSigners a.signatures
  serializes : a.compiled?.isSome = true →
    ((∃ wire, a.serialize = .ok wire) ↔ a.missingSigners = []) ∧
    (a.missingSigners ≠ [] → a.serialize =
      .error (.incompleteSignatures a.missingSigners.length a.requiredSigners.length))
  refuses : a.compiled?.isSome = false → a.serialize = .error (.invalidState .notCompiled)

theorem coherent_of_none (hnone : a.compiled? = none)
    (hstage : a.stage ≠ .collectingSignatures ∧ a.stage ≠ .readyToSubmit) : a.Coherent where
  compiled_iff := by simp [hnone, hstage]
  places := by simp [hnone]
  ready_iff := by simp [hnone, hstage]
  verifies := by simp [signatures, hnone]
  missing := by simp [missingSigners, requiredSigners, hnone, emptyPlaces]
  serializes := by simp [hnone]
  refuses _ := by
    rw [serialize, compiled, hnone]
    rfl

theorem coherent_of_sound {instructions : List Instruction} (hphase : a.IsIn (.compiled c))
    (h : c.Sound instructions feePayer) : a.Coherent := by
  obtain ⟨hlength, hpos, -⟩ := h.length_slots
  have hc : a.compiled? = some c := hphase.compiled?_eq
  have hstage : a.stage = if c.isComplete then .readyToSubmit else .collectingSignatures :=
    hphase.stage_eq
  have hsignatures := hphase.signatures_eq
  have hrequired := hphase.requiredSigners_eq
  have hmissing := hphase.missingSigners_eq
  exact {
    compiled_iff := by
      rw [hc, hstage]
      cases c.isComplete <;> simp
    places := by
      intro _
      rw [hsignatures, hrequired, hlength]
      exact ⟨rfl, hpos⟩
    ready_iff := by
      rw [hstage, hc, hsignatures, ← Compiled.isComplete_iff]
      simp
    verifies := by
      intro bytes i signature hbytes hi
      rw [hsignatures] at hi
      have hc' : c.bytes = bytes := Except.ok.inj (hphase.messageBytes_eq.symm.trans hbytes)
      obtain ⟨hi, hget⟩ := List.getElem?_eq_some_iff.1 hi
      have hi' : i < c.message.signerKeys.length := by omega
      have hkey := h.verifies.get hi' hi signature hget
      refine ⟨c.message.signerKeys[i], ?_, hc' ▸ hkey⟩
      rw [hrequired, List.getElem?_eq_getElem hi']
    missing := by
      rw [hmissing, hrequired, hsignatures, Compiled.missingSigners, emptyPlaces_eq hlength]
    serializes := by
      intro _
      rw [hphase.serialize_eq, hmissing, hrequired]
      refine ⟨⟨fun hwire ↦ ?_, h.exists_wire⟩, Compiled.wire_of_missing hlength⟩
      by_contra hne
      obtain ⟨wire, hwire⟩ := hwire
      rw [Compiled.wire_of_missing hlength hne] at hwire
      cases hwire
    refuses := by simp [hc] }

/-- What a step leaves as it is. -/
structure Advances (a a' : Assembler) : Prop where
  stage : a.stage.rank ≤ a'.stage.rank
  feePayer : a'.feePayer = a.feePayer
  instructions : a.stage ≠ .building → a'.instructions = a.instructions
  compiled : ∀ c c', a.compiled? = some c → a'.compiled? = some c' →
    c'.message = c.message ∧ c'.bytes = c.bytes ∧ c'.reference = c.reference

theorem rank_stage_of_compiled (hphase : a.IsIn (.compiled c)) :
    a.stage.rank = if c.isComplete then 3 else 2 := by
  rw [hphase.stage_eq, Phase.stage]
  cases c.isComplete <;> rfl

theorem rank_stage_le_one (hphase : a.IsIn phase) (hopen : phase.IsOpen) : a.stage.rank ≤ 1 := by
  rw [hphase.stage_eq]
  rcases hopen with rfl | rfl <;> decide

theorem compiled?_eq_none (hphase : a.IsIn phase) (hopen : phase.IsOpen) : a.compiled? = none := by
  rw [hphase.compiled?_eq]
  rcases hopen with rfl | rfl <;> rfl

theorem advances_of_moves {added : List Instruction} {fixed : List BlockReference}
    {submitted : List (Bytes × UInt64)} (h : a.Moves added fixed submitted a') : a.Advances a' := by
  cases h with
  | stay =>
    refine ⟨Nat.le_refl _, rfl, fun _ ↦ rfl, fun c c' hc hc' ↦ ?_⟩
    cases hc.symm.trans hc'
    exact ⟨rfl, rfl, rfl⟩
  | add instructions hphase =>
    have hnone := compiled?_eq_none hphase (.inl rfl)
    exact ⟨Nat.le_refl _, rfl, fun hstage ↦ absurd hphase.stage_eq hstage, by simp [hnone]⟩
  | await hphase hopen =>
    exact ⟨rank_stage_le_one hphase hopen, rfl, fun _ ↦ rfl,
      by simp [compiled?_eq_none hphase hopen]⟩
  | compile hphase hopen hcompile =>
    obtain ⟨c, ha, -⟩ := Compiled.sound_of_compile hcompile
    have hle := rank_stage_le_one hphase hopen
    have hrank := rank_stage_of_compiled (isIn_enter a (.compiled c))
    rw [ha]
    refine ⟨?_, rfl, fun _ ↦ rfl, by simp [compiled?_eq_none hphase hopen]⟩
    rw [hrank]
    split <;> omega
  | @sign c c' hphase hfills =>
    have hrank := rank_stage_of_compiled hphase
    have hrank' := rank_stage_of_compiled (isIn_enter a (.compiled c'))
    obtain ⟨slots, hslots⟩ := hfills.exists_slots
    refine ⟨?_, rfl, fun _ ↦ rfl, fun d d' hd hd' ↦ ?_⟩
    · rw [hrank, hrank']
      by_cases hcomplete : c.isComplete = true
      · rw [if_pos hcomplete, if_pos (hfills.isComplete hcomplete)]
      · rw [if_neg hcomplete]
        split <;> decide
    · cases hphase.compiled?_eq.symm.trans hd
      cases hd'
      rw [hslots]
      exact ⟨rfl, rfl, rfl⟩
  | submit hphase hwire =>
    refine ⟨?_, rfl, fun _ ↦ rfl, fun _ _ _ hc' ↦ by cases hc'⟩
    rw [rank_stage_of_compiled hphase]
    split <;> simp [Stage.rank]

theorem stage_of_moves {added : List Instruction} {reference : BlockReference}
    {submitted : List (Bytes × UInt64)} (h : a.Moves added [reference] submitted a') :
    a'.stage = .collectingSignatures := by
  cases h with
  | compile _ _ hcompile =>
    obtain ⟨c, ha, -, hsound, hempty⟩ := Compiled.sound_of_compile hcompile
    rw [ha, enter, Phase.stage, hsound.isComplete_eq_false_of_empty hempty]
    rfl

/-- Whatever was done to an assembler, and whatever came of it, the assembler is coherent, and the
next step only advances it. A message that was just compiled still lacks a signature. -/
theorem Run.coherent (h : Run feePayer steps a) :
    a.Coherent ∧ ∀ (operation : Operation) (exchanges : List Exchange) (a' : Assembler)
      (result : Option (Except ClientError (Option BlockReference))),
      (operation.act a).Trace exchanges a' result →
        a.Advances a' ∧
          ∀ reference, result = some (.ok (some reference)) → a'.stage = .collectingSignatures := by
  constructor
  · obtain ⟨-, -, phase, hphase, haccords⟩ := h.accords
    cases phase with
    | compiled c => exact coherent_of_sound hphase haccords.1
    | building | awaiting | submitted =>
      exact coherent_of_none hphase.compiled?_eq (by simp [hphase.stage_eq, Phase.stage])
  · intro operation exchanges a' result htrace
    obtain ⟨phase, hphase⟩ := h.exists_phase
    have hmoves := moves_of_trace hphase htrace
    refine ⟨advances_of_moves hmoves, fun reference hresult ↦ ?_⟩
    subst hresult
    exact stage_of_moves hmoves

theorem Run.coherent_unsigned :
    let payer : Address := ⟨.replicate 32 1⟩
    let instruction : Instruction := ⟨⟨.replicate 32 2⟩, [], [7]⟩
    let steps : List Step := [⟨.add [instruction], [], some (.ok none)⟩,
      ⟨.setReference ⟨.replicate 32 3, 42⟩, [], some (.ok (some ⟨.replicate 32 3, 42⟩))⟩]
    ∃ a, Run payer steps a ∧ a.stage = .collectingSignatures ∧ a.missingSigners = [payer] ∧
      a.serialize = .error (.incompleteSignatures 1 1) := by
  intro payer instruction steps
  let m : Message := ⟨1, 0, 1, [payer, ⟨.replicate 32 2⟩], .replicate 32 3, [⟨1, [], [7]⟩]⟩
  let bytes : Bytes :=
    [1, 0, 1, 2] ++ payer.toList ++ .replicate 32 2 ++ .replicate 32 3 ++ [1, 1, 0, 1, 7]
  let a (phase : Phase) : Assembler := ⟨payer, [instruction], phase.stage, phase.compiled?⟩
  let a' : Assembler := a (.compiled ⟨⟨.replicate 32 3, 42⟩, m, bytes, [none]⟩)
  have hreference : (a .building).setReference ⟨.replicate 32 3, 42⟩ = .ok a' := by decide +kernel
  have hrun : Run payer [⟨.add [instruction], [], some (.ok none)⟩] (a .building) :=
    .step .start (Attempt.trace_map_change_iff.2 ⟨rfl, .inr ⟨rfl, rfl⟩⟩)
  have htrace : ((Operation.setReference ⟨.replicate 32 3, 42⟩).act (a .building)).Trace [] a'
      (some (.ok (some ⟨.replicate 32 3, 42⟩))) :=
    Attempt.trace_map_change_iff.2 ⟨rfl, .inr ⟨hreference, rfl⟩⟩
  have hstage := ((Run.coherent hrun).2 _ _ _ _ htrace).2 _ rfl
  have hmissing : a'.missingSigners = [payer] := rfl
  have hserialize := ((Run.coherent (hrun.step htrace)).1.serializes rfl).2 (by simp [hmissing])
  exact ⟨a', hrun.step htrace, hstage, hmissing, hserialize⟩

end Assembler

end ValidatorClient
