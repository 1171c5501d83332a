import ValidatorClient.Proofs.Assembler.Run
import ValidatorClient.Proofs.Ledger.Message
import ValidatorClient.Proofs.Ledger.Wire

namespace ValidatorClient

open Ledger
open List (Forall₂)

variable {instructions : List Instruction} {feePayer : Address}

theorem forall₂_set {α β : Type} {r : α → β → Prop} {as : List α} {bs : List β} {i : Nat} {a : α}
    {b : β} (h : Forall₂ r as bs) (ha : as[i]? = some a) (hb : r a b) :
    Forall₂ r as (bs.set i b) := by
  induction h generalizing i with
  | nil => exact .nil
  | cons hfirst hrest ih =>
    cases i with
    | zero =>
      cases ha
      exact .cons hb hrest
    | succ i => exact .cons hfirst (ih ha)

theorem eq_map_some_filterMap {α : Type} {slots : List (Option α)}
    (h : (slots.filterMap id).length = slots.length) : slots = (slots.filterMap id).map some := by
  induction slots with
  | nil => rfl
  | cons slot slots ih =>
    cases slot with
    | none =>
      have hle := List.length_filterMap_le id slots
      rw [List.filterMap_cons_none rfl, List.length_cons] at h
      omega
    | some a =>
      have hcons : (some a :: slots).filterMap id = a :: slots.filterMap id := rfl
      rw [hcons, List.length_cons, List.length_cons, Nat.add_right_cancel_iff] at h
      rw [hcons, List.map_cons, ← ih h]

namespace Compiled

variable {c c' : Compiled}

theorem getElem?_of_slotOf {slot : Nat} {signer : Address} (h : c.slotOf signer = .ok slot) :
    c.message.signerKeys[slot]? = some signer := by
  unfold slotOf at h
  cases hfound : c.message.signerKeys.idxOf? signer with
  | none =>
    rw [hfound] at h
    cases h
  | some i =>
    rw [hfound] at h
    cases h
    obtain ⟨hlt, hkey, -⟩ := List.idxOf?_eq_some_iff.1 hfound
    exact List.getElem?_eq_some_iff.2 ⟨hlt, hkey⟩

theorem wire_eq_ok_iff {wire : Bytes} :
    c.wire = .ok wire ↔
      ∃ signatures, c.slots = signatures.map some ∧
        Wire.serialize signatures c.bytes = .ok wire := by
  unfold Compiled.wire
  dsimp only
  constructor
  · intro h
    by_cases hlength : (c.slots.filterMap id).length = c.slots.length
    · rw [if_neg (not_not_intro hlength), Except.mapError_eq_ok_iff] at h
      exact ⟨_, eq_map_some_filterMap hlength, h⟩
    · rw [if_pos hlength] at h
      cases h
  · intro h
    obtain ⟨signatures, hslots, h⟩ := h
    rw [hslots]
    simpa [List.filterMap_map, Except.mapError_eq_ok_iff] using h

/-- The message and its bytes are those of the instructions, and each place is empty or holds a
signature of its signer. -/
structure Sound (instructions : List Instruction) (feePayer : Address) (c : Compiled) : Prop where
  compiles : Message.compile instructions feePayer c.reference.blockhash = .ok c.message
  serializes : c.message.serialize = .ok c.bytes
  verifies :
    Forall₂ (fun key slot ↦ ∀ signature ∈ slot, Address.verifies key c.bytes signature = true)
    c.message.signerKeys c.slots

theorem Sound.blockhash (h : c.Sound instructions feePayer) :
    c.message.blockhash = c.reference.blockhash := by
  rw [(Message.compile_eq_ok_iff.1 h.compiles).2]

theorem Sound.store {slot : Nat} {signer : Address} {signature : Signature}
    (h : c.Sound instructions feePayer) (hslot : c.slotOf signer = .ok slot)
    (hstore : c.store slot signer signature = .ok c') : c'.Sound instructions feePayer := by
  obtain ⟨hverifies, hc⟩ := store_eq_ok_iff.1 hstore
  rw [hc]
  refine ⟨h.compiles, h.serializes, forall₂_set h.verifies (getElem?_of_slotOf hslot) ?_⟩
  intro other hother
  cases hother
  exact hverifies

theorem Sound.fills (h : c.Sound instructions feePayer) (hfills : c.Fills c') :
    c'.Sound instructions feePayer ∧ c'.reference = c.reference := by
  induction hfills with
  | refl c => exact ⟨h, rfl⟩
  | store hslot hstore hfills ih =>
    obtain ⟨hsound, href⟩ := ih (h.store hslot hstore)
    rw [href, (store_eq_ok_iff.1 hstore).2]
    exact ⟨hsound, rfl⟩

/-- The fee payer has to sign, so there is a place. -/
theorem Sound.length_slots (h : c.Sound instructions feePayer) :
    c.message.signerKeys.length = c.slots.length ∧ 0 < c.slots.length ∧ c.slots.length < 256 := by
  have hlength := h.verifies.length_eq
  have hkeys := Message.length_signerKeys h.compiles
  have hsigned := Message.readonlySigned_lt h.compiles
  have hbyte := c.message.requiredSignatures.toNat_lt
  omega

theorem Sound.isComplete_eq_false_of_empty (h : c.Sound instructions feePayer)
    (hempty : ∀ slot ∈ c.slots, slot = none) : c.isComplete = false := by
  obtain ⟨slot, hslot⟩ := List.exists_mem_of_length_pos h.length_slots.2.1
  rw [isComplete, List.all_eq_false]
  exact ⟨slot, hslot, by simp [hempty slot hslot]⟩

theorem sound_of_compile {a a' : Assembler} {reference : BlockReference}
    (h : a.compile reference = .ok a') :
    ∃ c, a' = a.enter (.compiled c) ∧ c.reference = reference ∧
      c.Sound a.instructions a.feePayer ∧ ∀ slot ∈ c.slots, slot = none := by
  obtain ⟨message, hmessage, h⟩ := Except.bind_eq_ok_iff.1 h
  obtain ⟨bytes, hbytes, h⟩ := Except.bind_eq_ok_iff.1 h
  rw [Except.mapError_eq_ok_iff] at hmessage hbytes
  let c : Compiled := ⟨reference, message, bytes, List.replicate message.signerKeys.length none⟩
  have hverifies : Forall₂ (fun key slot ↦ ∀ signature ∈ slot,
      Address.verifies key c.bytes signature = true) c.message.signerKeys c.slots := by
    refine List.forall₂_iff_get.2 ⟨by simp [c], ?_⟩
    intro i _ hi signature hsignature
    simp [c] at hsignature
  have hsound : c.Sound a.instructions a.feePayer := ⟨hmessage, hbytes, hverifies⟩
  have hempty : ∀ slot ∈ c.slots, slot = none := fun _ ↦ List.eq_of_mem_replicate
  refine ⟨c, ?_, rfl, hsound, hempty⟩
  cases h
  rw [Assembler.enter, Phase.stage, hsound.isComplete_eq_false_of_empty hempty]
  rfl

/-- A transaction that can be written holds one signature for each signer, and each of them
verifies. -/
theorem Sound.wire (h : c.Sound instructions feePayer) {wire : Bytes} (hwire : c.wire = .ok wire) :
    ∃ signatures, Wire.split wire = .ok (signatures, c.bytes) ∧
      Forall₂ (fun key signature ↦ Address.verifies key c.bytes signature = true)
        c.message.signerKeys signatures := by
  obtain ⟨signatures, hslots, hserialize⟩ := wire_eq_ok_iff.1 hwire
  refine ⟨signatures, Wire.split_of_serialize hserialize, ?_⟩
  have hverifies := h.verifies
  rw [hslots, List.forall₂_map_right_iff] at hverifies
  exact hverifies.imp fun _ _ hkey ↦ hkey _ rfl

end Compiled

namespace Phase

variable {phase : Phase} {added : List Instruction} {fixed : List BlockReference}
  {submitted : List (Bytes × UInt64)}

/-- What has been done to an assembler by the time that it is in a phase. -/
def Accords (feePayer : Address) (added : List Instruction) (fixed : List BlockReference)
    (submitted : List (Bytes × UInt64)) : Phase → Prop
  | .building | .awaiting => fixed = [] ∧ submitted = []
  | .compiled c => c.Sound added feePayer ∧ fixed = [c.reference] ∧ submitted = []
  | .submitted => ∃ (c : Compiled) (wire : Bytes), c.Sound added feePayer ∧ c.wire = .ok wire ∧
      fixed = [c.reference] ∧ submitted = [(wire, c.reference.lastValidHeight)]

theorem accords_open (hopen : phase.IsOpen) :
    phase.Accords feePayer added fixed submitted ↔ fixed = [] ∧ submitted = [] := by
  rcases hopen with rfl | rfl <;> rfl

end Phase

namespace Assembler

variable {a a' : Assembler} {phase : Phase} {steps : List Step} {added added' : List Instruction}
  {fixed fixed' : List BlockReference} {submitted submitted' : List (Bytes × UInt64)}

/-- The state of an assembler agrees with what was done to it, and its stage with its message. -/
structure Accords (feePayer : Address) (added : List Instruction) (fixed : List BlockReference)
    (submitted : List (Bytes × UInt64)) (a : Assembler) : Prop where
  feePayer_eq : a.feePayer = feePayer
  instructions_eq : a.instructions = added
  exists_phase : ∃ phase, a.IsIn phase ∧ phase.Accords feePayer added fixed submitted

theorem Accords.of_isIn (h : Accords feePayer added fixed submitted a) (hphase : a.IsIn phase) :
    phase.Accords feePayer added fixed submitted := by
  obtain ⟨-, -, phase', hphase', haccords⟩ := h
  rwa [hphase.unique hphase']

/-- Each kind of step keeps a history and its assembler in accord. -/
theorem Accords.moves (h : Accords feePayer added fixed submitted a)
    (hmoves : a.Moves added' fixed' submitted' a') :
    Accords feePayer (added ++ added') (fixed ++ fixed') (submitted ++ submitted') a' := by
  obtain ⟨hpayer, hadded, -⟩ := id h
  cases hmoves with
  | stay =>
    simpa only [List.append_nil] using h
  | add instructions hphase =>
    obtain ⟨hfixed, hsubmitted⟩ := h.of_isIn hphase
    rw [hfixed, hsubmitted, ← hadded]
    exact ⟨hpayer, rfl, .building, ⟨hphase.stage_eq, hphase.compiled?_eq⟩, rfl, rfl⟩
  | await hphase hopen =>
    obtain ⟨hfixed, hsubmitted⟩ := (Phase.accords_open hopen).1 (h.of_isIn hphase)
    rw [hfixed, hsubmitted, List.append_nil]
    exact ⟨hpayer, hadded, .awaiting, isIn_awaiting hphase hopen, rfl, rfl⟩
  | compile hphase hopen hcompile =>
    obtain ⟨hfixed, hsubmitted⟩ := (Phase.accords_open hopen).1 (h.of_isIn hphase)
    obtain ⟨c, ha, href, hsound, -⟩ := Compiled.sound_of_compile hcompile
    rw [hadded, hpayer] at hsound
    rw [ha, hfixed, hsubmitted, List.append_nil, ← href]
    exact ⟨hpayer, hadded, .compiled c, isIn_enter a _, hsound, rfl, rfl⟩
  | @sign c c' hphase hfills =>
    obtain ⟨hsound, hfixed, hsubmitted⟩ := h.of_isIn hphase
    obtain ⟨hsound, href⟩ := hsound.fills hfills
    rw [List.append_nil, List.append_nil, List.append_nil]
    exact ⟨hpayer, hadded, .compiled c', isIn_enter a _, hsound, href ▸ hfixed, hsubmitted⟩
  | submit hphase hwire =>
    obtain ⟨hsound, hfixed, hsubmitted⟩ := h.of_isIn hphase
    rw [List.append_nil, List.append_nil, hsubmitted]
    exact ⟨hpayer, hadded, .submitted, ⟨rfl, rfl⟩, _, _, hsound, hwire, hfixed, rfl⟩

theorem Run.accords (h : Run feePayer steps a) :
    Accords feePayer (steps.flatMap Step.added) (steps.flatMap Step.fixed)
      (steps.flatMap Step.submitted) a := by
  induction h with
  | start => exact ⟨rfl, rfl, .building, isIn_start feePayer, rfl, rfl⟩
  | step _ htrace ih =>
    obtain ⟨phase, hphase, -⟩ := ih.exists_phase
    rw [List.flatMap_append, List.flatMap_append, List.flatMap_append, List.flatMap_singleton,
      List.flatMap_singleton, List.flatMap_singleton]
    exact ih.moves (moves_of_trace hphase htrace)

/-- Whatever is done to an assembler, its stage and its message stay in step. -/
theorem Run.exists_phase (h : Run feePayer steps a) : ∃ phase, a.IsIn phase := by
  obtain ⟨phase, hphase, -⟩ := h.accords.exists_phase
  exact ⟨phase, hphase⟩

theorem Run.sound (h : Run feePayer steps a) {c : Compiled} (hphase : a.IsIn (.compiled c)) :
    c.Sound (steps.flatMap Step.added) feePayer :=
  (h.accords.of_isIn hphase).1

/-- Over a whole run at most one transaction is handed to the node. It holds the message of the
instructions that were added and of the one block reference that was fixed, and a signature of each
required signer in their order. -/
theorem Run.submitted_eq (h : Run feePayer steps a) :
    steps.flatMap Step.submitted = [] ∨
      ∃ (reference : BlockReference) (m : Message) (bytes wire : Bytes)
        (signatures : List Signature),
        steps.flatMap Step.submitted = [(wire, reference.lastValidHeight)] ∧
        steps.flatMap Step.fixed = [reference] ∧
        Message.compile (steps.flatMap Step.added) feePayer reference.blockhash = .ok m ∧
        m.serialize = .ok bytes ∧
        Wire.split wire = .ok (signatures, bytes) ∧
        bytes.head? = some m.requiredSignatures ∧
        signatures.length = m.requiredSignatures.toNat ∧
        m.accountKeys[0]? = some feePayer ∧
        ∀ (i : Nat) (signature : Signature), signatures[i]? = some signature →
          ∃ key : Address, m.accountKeys[i]? = some key ∧ key.verifies bytes signature = true := by
  obtain ⟨-, -, phase, -, haccords⟩ := h.accords
  cases phase with
  | building | awaiting => exact .inl haccords.2
  | compiled c => exact .inl haccords.2.2
  | submitted =>
    obtain ⟨c, wire, hsound, hwire, hfixed, hsubmitted⟩ := haccords
    obtain ⟨signatures, hsplit, hverifies⟩ := hsound.wire hwire
    refine .inr ⟨c.reference, c.message, c.bytes, wire, signatures, hsubmitted, hfixed,
      hsound.compiles, hsound.serializes, hsplit, Message.head?_of_serialize hsound.serializes, ?_,
      Message.getElem?_zero_accountKeys hsound.compiles, ?_⟩
    · rw [← hverifies.length_eq, Message.length_signerKeys hsound.compiles]
    · intro i signature hsignature
      obtain ⟨hi, hsignature⟩ := List.getElem?_eq_some_iff.1 hsignature
      have hi' : i < c.message.signerKeys.length := by
        rwa [hverifies.length_eq]
      refine ⟨c.message.signerKeys[i],
        (Message.getElem?_signerKeys_iff.1 (List.getElem?_eq_getElem hi')).2, ?_⟩
      rw [← hsignature]
      exact hverifies.get hi' hi

/-- An instruction is added, a reference set, the fee payer's signature stored, and the node does
not answer. -/
theorem Run.submitted_eq_transfer :
    let payer : Address :=
      ⟨⟨[138, 136, 227, 221, 116, 9, 241, 149, 253, 82, 219, 45, 60, 186, 93, 114, 202, 103, 9, 191,
      29, 148, 18, 27, 243, 116, 136, 1, 180, 15, 111, 92], rfl⟩⟩
    let signature : Signature :=
      ⟨[191, 237, 8, 108, 179, 225, 227, 104, 29, 145, 155, 229, 255, 41, 181, 249, 236, 15, 204,
      194, 191, 254, 37, 229, 22, 247, 112, 124, 47, 62, 29, 86, 178, 43, 56, 211, 193, 235, 88,
      132, 252, 199, 31, 195, 212, 147, 92, 14, 7, 174, 190, 246, 112, 77, 61, 116, 236, 113, 205,
      96, 84, 159, 69, 6], rfl⟩
    let instruction : Instruction := ⟨⟨.replicate 32 2⟩, [], [7]⟩
    let reference : BlockReference := ⟨.replicate 32 3, 42⟩
    let bytes : Bytes :=
      [1, 0, 1, 2] ++ payer.toList ++ .replicate 32 2 ++ .replicate 32 3 ++ [1, 1, 0, 1, 7]
    let wire : Bytes := 1 :: signature.toList ++ bytes
    let steps : List Step := [⟨.add [instruction], [], some (.ok none)⟩,
      ⟨.setReference reference, [], some (.ok (some reference))⟩,
      ⟨.addSignature payer signature, [], some (.ok none)⟩,
        ⟨.submit, [⟨.submit wire 42, none⟩], none⟩]
    (∃ a, Run payer steps a) ∧
      ∃ m message signatures, Message.compile [instruction] payer reference.blockhash = .ok m ∧
        m.serialize = .ok message ∧ Wire.split wire = .ok (signatures, message) ∧
        signatures.length = m.requiredSignatures.toNat := by
  intro payer signature instruction reference bytes wire steps
  let m : Message := ⟨1, 0, 1, [payer, ⟨.replicate 32 2⟩], .replicate 32 3, [⟨1, [], [7]⟩]⟩
  let a (phase : Phase) : Assembler := ⟨payer, [instruction], phase.stage, phase.compiled?⟩
  let c (slot : Option Signature) : Compiled := ⟨reference, m, bytes, [slot]⟩
  have hreference : (a .building).setReference reference = .ok (a (.compiled (c none))) := by
    decide +kernel
  have hsignature : (a (.compiled (c none))).addSignature payer signature =
      .ok (a (.compiled (c (some signature)))) := by
    decide +kernel
  have hwire : (c (some signature)).wire = .ok wire := by
    decide +kernel
  have hsubmit : (submit (a (.compiled (c (some signature))))).Trace [⟨.submit wire 42, none⟩]
      (a .submitted) none := by
    rw [submit_of_wire ⟨rfl, rfl⟩ hwire]
    exact .givenUp _ _ _
  have htrace₁ : ((Operation.add [instruction]).act (Assembler.start payer)).Trace [] (a .building)
      (some (.ok none)) :=
    Attempt.trace_map_change_iff.2 ⟨rfl, .inr ⟨rfl, rfl⟩⟩
  have htrace₂ : ((Operation.setReference reference).act (a .building)).Trace []
      (a (.compiled (c none))) (some (.ok (some reference))) :=
    Attempt.trace_map_change_iff.2 ⟨rfl, .inr ⟨hreference, rfl⟩⟩
  have htrace₃ : ((Operation.addSignature payer signature).act (a (.compiled (c none)))).Trace []
      (a (.compiled (c (some signature)))) (some (.ok none)) :=
    Attempt.trace_map_change_iff.2 ⟨rfl, .inr ⟨hsignature, rfl⟩⟩
  have htrace₄ : (Operation.submit.act (a (.compiled (c (some signature))))).Trace
      [⟨.submit wire 42, none⟩] (a .submitted) none :=
    Attempt.trace_map_iff.2 ⟨_, hsubmit, rfl⟩
  have hrun : Run payer steps (a .submitted) :=
    .step (.step (.step (.step .start htrace₁) htrace₂) htrace₃) htrace₄
  refine ⟨⟨_, hrun⟩, ?_⟩
  rcases Run.submitted_eq hrun with hnone | ⟨reference', m', message, wire', signatures, hsubmitted,
    hfixed, hcompile, hserialize, hsplit, -, hlength, -⟩
  · exact absurd hnone (List.cons_ne_nil (wire, 42) [])
  · cases hfixed
    injection hsubmitted with hpair
    injection hpair with hwire'
    rw [← hwire'] at hsplit
    exact ⟨m', message, signatures, hcompile, hserialize, hsplit, hlength⟩

end Assembler

end ValidatorClient
