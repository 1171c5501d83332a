import ValidatorClient.Proofs.Assembler.Coherence
import ValidatorClient.Proofs.Program.Location

namespace ValidatorClient

open Ledger

variable {d : Address}

inductive Ledger.Address.IsDerived : Address → Prop
  | found {seeds : List Bytes} {owner d : Address} {bump : UInt8}
      (h : DerivedAddress.find seeds owner = .ok (d, bump)) : IsDerived d
  | created {seeds : List Bytes} {owner d : Address}
      (h : DerivedAddress.create seeds owner = .ok d) : IsDerived d
  | located {l : Program.Location} {d : Address} (h : l.address = .ok d) : IsDerived d

theorem Ledger.Address.IsDerived.isOnCurve_eq_false (h : d.IsDerived) : d.isOnCurve = false := by
  cases h with
  | found h => exact (DerivedAddress.offCurve?_eq_some_iff.1 (DerivedAddress.offCurve?_of_find h)).2
  | created h =>
    exact (DerivedAddress.offCurve?_eq_some_iff.1 (DerivedAddress.offCurve?_of_create h)).2
  | located h =>
    obtain ⟨bump, hfound⟩ := Program.Location.exists_of_address h
    exact (DerivedAddress.offCurve?_eq_some_iff.1 hfound).2

namespace Ledger.Message

variable {right : AccountMeta → Bool} {instructions : List Instruction} {feePayer key : Address}

theorem Grants.append (h : Grants right instructions feePayer key) (more : List Instruction) :
    Grants right (instructions ++ more) feePayer key := by
  rcases h with hpayer | ⟨i, hi, h⟩
  · exact .inl hpayer
  · exact .inr ⟨i, List.mem_append_left more hi, h⟩

end Ledger.Message

namespace Compiled

variable {c : Compiled} {instructions : List Instruction} {feePayer : Address}

theorem Sound.isComplete_eq_false (h : c.Sound instructions feePayer)
    (hd : d ∈ c.message.signerKeys)
    (hnever : ∀ message signature, d.verifies message signature = false) :
    c.isComplete = false := by
  rw [Bool.eq_false_iff]
  intro hcomplete
  obtain ⟨i, hi, hkey⟩ := List.getElem_of_mem hd
  have hi' : i < c.slots.length := h.verifies.length_eq ▸ hi
  obtain ⟨signature, hslot⟩ :=
    Option.isSome_iff_exists.1 (isComplete_iff.1 hcomplete _ (List.getElem_mem hi'))
  -- what is in the place of `d` would have to verify
  have hverifies := h.verifies.get hi hi' signature hslot
  rw [List.get_eq_getElem, hkey, hnever] at hverifies
  cases hverifies

theorem isComplete_of_wire {wire : Bytes} (h : c.wire = .ok wire) : c.isComplete = true := by
  obtain ⟨signatures, hslots, -⟩ := wire_eq_ok_iff.1 h
  rw [isComplete_iff, hslots]
  simp

end Compiled

namespace Assembler

variable {feePayer : Address} {steps : List Step} {a : Assembler}

theorem Run.unsigned_of_grants (h : Run feePayer steps a)
    (hgrants : Message.Grants (·.isSigner) (steps.flatMap Step.added) feePayer d)
    (hnever : ∀ message signature, d.verifies message signature = false) :
    a.stage ≠ .readyToSubmit ∧ a.stage ≠ .submitted ∧ steps.flatMap Step.submitted = [] := by
  obtain ⟨-, -, phase, hphase, haccords⟩ := h.accords
  rw [hphase.stage_eq]
  cases phase with
  | building | awaiting => exact ⟨by simp [Phase.stage], by simp [Phase.stage], haccords.2⟩
  | compiled c =>
    obtain ⟨hsound, -, hsubmitted⟩ := haccords
    have hd := (Message.mem_signerKeys_iff hsound.compiles).2 hgrants
    have hcomplete := hsound.isComplete_eq_false hd hnever
    have hstage : (Phase.compiled c).stage = .collectingSignatures := by
      rw [Phase.stage, hcomplete]
      rfl
    rw [hstage]
    exact ⟨by decide, by decide, hsubmitted⟩
  | submitted =>
    obtain ⟨c, wire, hsound, hwire, -⟩ := haccords
    have hd := (Message.mem_signerKeys_iff hsound.compiles).2 hgrants
    have hcomplete := hsound.isComplete_eq_false hd hnever
    rw [Compiled.isComplete_of_wire hwire] at hcomplete
    cases hcomplete

theorem Run.grants_of_requiredSigners (h : Run feePayer steps a) (hd : d ∈ a.requiredSigners) :
    Message.Grants (·.isSigner) (steps.flatMap Step.added) feePayer d := by
  obtain ⟨phase, hphase⟩ := h.exists_phase
  cases phase with
  | building | awaiting | submitted =>
    rw [requiredSigners, hphase.compiled?_eq] at hd
    cases hd
  | compiled c =>
    rw [hphase.requiredSigners_eq] at hd
    exact (Message.mem_signerKeys_iff (h.sound hphase).compiles).1 hd

/-- Nothing verifies for a derived address. An assembler in which it pays the fee, or is a signer of
an instruction, or is a required signer of the message, is not ready to be submitted, whatever is
done with it from there on, and hands nothing to the node. -/
theorem derived_never_signs (hd : d.IsDerived) :
    (∀ message signature, d.verifies message signature = false) ∧
    ∀ feePayer steps a, Run feePayer steps a →
      d ∈ a.requiredSigners ∨ Message.Grants (·.isSigner) (steps.flatMap Step.added) feePayer d →
      ∀ more a', Run feePayer (steps ++ more) a' →
        a'.stage ≠ .readyToSubmit ∧ a'.stage ≠ .submitted ∧
          (steps ++ more).flatMap Step.submitted = [] := by
  have hnever := Address.verifies_eq_false hd.isOnCurve_eq_false
  refine ⟨hnever, fun feePayer steps a h hsigner more a' h' ↦ h'.unsigned_of_grants ?_ hnever⟩
  rw [List.flatMap_append]
  rcases hsigner with hrequired | hgrants
  · exact (h.grants_of_requiredSigners hrequired).append _
  · exact hgrants.append _

theorem derived_never_signs_pool :
    let payer : Address := ⟨.replicate 32 1⟩
    let pool : Address := .ofNat 0xfd6b71df791bfdbdefed51077baece514171ec7884a5e4bc10f841f9b9c2bb7d
    let instruction : Instruction := ⟨⟨.replicate 32 2⟩, [.readonlySigner pool], [7]⟩
    let steps : List Step := [⟨.add [instruction], [], some (.ok none)⟩,
      ⟨.setReference ⟨.replicate 32 3, 42⟩, [], some (.ok (some ⟨.replicate 32 3, 42⟩))⟩]
    let attempt : Step := ⟨.submit, [], some (.error (.incompleteSignatures 2 2))⟩
    (Program.Location.single ⟨.replicate 32 2⟩ .pool).address = .ok pool ∧
      ∃ a, Run payer steps a ∧ a.requiredSigners = [payer, pool] ∧
        Run payer (steps ++ [attempt]) a ∧
        a.stage ≠ .readyToSubmit ∧ (steps ++ [attempt]).flatMap Step.submitted = [] := by
  intro payer pool instruction steps attempt
  let m : Message := ⟨2, 1, 1, [payer, pool, ⟨.replicate 32 2⟩], .replicate 32 3, [⟨2, [1], [7]⟩]⟩
  let bytes : Bytes :=
    [2, 1, 1, 3] ++ payer.toList ++ pool.toList ++ .replicate 32 2 ++ .replicate 32 3 ++
    [1, 2, 1, 1, 1, 7]
  let c : Compiled := ⟨⟨.replicate 32 3, 42⟩, m, bytes, [none, none]⟩
  let a (phase : Phase) : Assembler := ⟨payer, [instruction], phase.stage, phase.compiled?⟩
  have haddress : (Program.Location.single ⟨.replicate 32 2⟩ .pool).address = .ok pool := by
    decide +kernel
  have hreference : (a .building).setReference ⟨.replicate 32 3, 42⟩ = .ok (a (.compiled c)) := by
    decide +kernel
  have hsubmit : (submit (a (.compiled c))).Trace [] (a (.compiled c))
      (some (.error (.incompleteSignatures 2 2))) := by
    rw [submit_of_wire_error (c := c) ⟨rfl, rfl⟩ rfl]
    exact .done _ _
  have hrun : Run payer [⟨.add [instruction], [], some (.ok none)⟩] (a .building) :=
    .step .start (Attempt.trace_map_change_iff.2 ⟨rfl, .inr ⟨rfl, rfl⟩⟩)
  have hcompiled : Run payer steps (a (.compiled c)) :=
    hrun.step (Attempt.trace_map_change_iff.2 ⟨rfl, .inr ⟨hreference, rfl⟩⟩)
  have hattempt : Run payer (steps ++ [attempt]) (a (.compiled c)) :=
    hcompiled.step (Attempt.trace_map_iff.2 ⟨_, hsubmit, rfl⟩)
  obtain ⟨hready, -, hsubmitted⟩ := (derived_never_signs (.located haddress)).2 _ _ _ hcompiled
    (.inl (by simp [requiredSigners, Phase.compiled?, a, c, m, Message.signerKeys])) _ _ hattempt
  exact ⟨haddress, _, hcompiled, rfl, hattempt, hready, hsubmitted⟩

end Assembler

end ValidatorClient
