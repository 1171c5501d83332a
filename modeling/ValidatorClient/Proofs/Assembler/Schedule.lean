import ValidatorClient.Proofs.Assembler.Coherence
import ValidatorClient.Proofs.Assembler.Unsigned

namespace ValidatorClient

open Ledger Attempt Process

def Exchange.stored? : Exchange → Option (Address × Signature)
  | ⟨.sign signer bytes, some (Except.ok signature)⟩ =>
    if signer.address.verifies bytes signature then some (signer.address, signature) else none
  | _ => none

namespace Exchange

variable {signer : Signer} {bytes : Bytes} {signature : Signature}

theorem stored?_of_verifies (h : signer.address.verifies bytes signature = true) :
    stored? ⟨.sign signer bytes, some (Except.ok signature)⟩ =
      some (signer.address, signature) := by
  simp [stored?, h]

theorem stored?_of_not_verifies (h : signer.address.verifies bytes signature = false) :
    stored? ⟨.sign signer bytes, some (Except.ok signature)⟩ = none := by
  simp [stored?, h]

theorem stored?_error (e : ClientError) :
    stored? ⟨.sign signer bytes, some (Except.error e)⟩ = none := rfl

end Exchange

variable {instructions : List Instruction} {feePayer : Address}

namespace Compiled

variable {c c' c'' : Compiled} {stored stored' : List (Address × Signature)}

/-- A place holds something that was stored for its key or, if nothing was, what it held before. -/
structure Collects (stored : List (Address × Signature)) (c c' : Compiled) : Prop where
  keeps : c' = { c with slots := c'.slots }
  length_eq : c'.slots.length = c.slots.length
  places : ∀ (i : Nat) (key : Address), c.message.signerKeys[i]? = some key →
    (∃ signature, (key, signature) ∈ stored ∧ c'.slots[i]? = some (some signature)) ∨
      (∀ signature, (key, signature) ∉ stored) ∧ c'.slots[i]? = c.slots[i]?

theorem Collects.refl (c : Compiled) : Collects [] c c :=
  ⟨rfl, rfl, fun _ _ _ ↦ .inr ⟨fun _ ↦ List.not_mem_nil, rfl⟩⟩

theorem Collects.message_eq (h : Collects stored c c') : c'.message = c.message := by
  rw [h.keeps]

theorem Collects.append (h : Collects stored c c') (h' : Collects stored' c' c'') :
    Collects (stored ++ stored') c c'' := by
  refine ⟨by rw [h'.keeps, h.keeps], h'.length_eq.trans h.length_eq, fun i key hkey ↦ ?_⟩
  rcases h'.places i key (h.message_eq ▸ hkey) with ⟨signature, hmem, hslot⟩ | ⟨hnone', hslot'⟩
  · exact .inl ⟨signature, List.mem_append_right _ hmem, hslot⟩
  rw [hslot']
  rcases h.places i key hkey with ⟨signature, hmem, hslot⟩ | ⟨hnone, hslot⟩
  · exact .inl ⟨signature, List.mem_append_left _ hmem, hslot⟩
  · refine .inr ⟨fun signature hmem ↦ ?_, hslot⟩
    rcases List.mem_append.1 hmem with hmem | hmem
    · exact hnone signature hmem
    · exact hnone' signature hmem

theorem Sound.collects_store (h : c.Sound instructions feePayer) {slot : Nat} {signer : Address}
    {signature : Signature} (hslot : c.slotOf signer = .ok slot)
    (hstore : c.store slot signer signature = .ok c') : Collects [(signer, signature)] c c' := by
  rw [(store_eq_ok_iff.1 hstore).2]
  refine ⟨rfl, List.length_set, fun i key hkey ↦ ?_⟩
  dsimp only
  by_cases hsigner : key = signer
  · subst hsigner
    have hi : i < c.slots.length := by
      rw [← h.verifies.length_eq]
      exact (List.getElem?_eq_some_iff.1 hkey).1
    rw [h.eq_of_slotOf hkey hslot, List.getElem?_set_self hi]
    exact .inl ⟨signature, List.mem_singleton_self _, rfl⟩
  · have hne : slot ≠ i := by
      intro heq
      rw [← heq, getElem?_of_slotOf hslot] at hkey
      exact hsigner (Option.some.inj hkey).symm
    rw [List.getElem?_set_ne hne]
    exact .inr ⟨fun s hmem ↦ hsigner (Prod.mk.inj (List.mem_singleton.1 hmem)).1, rfl⟩

/-- If one and the same signature of each signer is stored, the order in which they come does not
matter. -/
theorem Collects.slots_eq {sig : Address → Signature} (h : Collects stored c c')
    (hlength : c.message.signerKeys.length = c.slots.length)
    (hall : ∀ key ∈ c.message.signerKeys, ∃ signature, (key, signature) ∈ stored)
    (hsame : ∀ p ∈ stored, p.2 = sig p.1) : c'.slots = (c.message.signerKeys.map sig).map some := by
  refine List.ext_getElem (by simp [h.length_eq, hlength]) fun i hi hi' ↦ ?_
  have hkeys : i < c.message.signerKeys.length := by
    rw [hlength, ← h.length_eq]
    exact hi
  rcases h.places i _ (List.getElem?_eq_getElem hkeys) with ⟨signature, hmem, hslot⟩ | ⟨hnone, -⟩
  · obtain ⟨_, hslot⟩ := List.getElem?_eq_some_iff.1 hslot
    have hsignature := hsame _ hmem
    rw [hslot, List.getElem_map, List.getElem_map, ← hsignature]
  · obtain ⟨signature, hmem⟩ := hall _ (List.getElem_mem hkeys)
    exact absurd hmem (hnone signature)

end Compiled

namespace Assembler

variable {before steps steps₁ steps₂ : List Step} {a a' a₁ a₂ : Assembler} {phase : Phase}
  {c c' : Compiled} {exchanges : List Exchange} {planned : List Planned} {bytes : Bytes}
  {sig : Address → Signature}

theorem Signs.collects {r : Option (Except ClientError Unit)} (h : Signs planned c exchanges c' r)
    (hsound : c.Sound instructions feePayer)
    (hplanned : ∀ p ∈ planned, c.slotOf p.signer.address = .ok p.slot) :
    c.Collects (exchanges.filterMap Exchange.stored?) c' := by
  induction h with
  | done c | givenUp _ _ c | refused _ _ c _ => exact .refl c
  | @wrong _ c _ _ hwrong =>
    rw [List.filterMap_cons_none (Exchange.stored?_of_not_verifies hwrong)]
    exact .refl c
  | @stored p rest c c₁ _ _ _ _ hstore _ ih =>
    have hslot := hplanned p List.mem_cons_self
    rw [List.filterMap_cons_some
        (Exchange.stored?_of_verifies (Compiled.store_eq_ok_iff.1 hstore).1)]
    refine (hsound.collects_store hslot hstore).append
      (ih (hsound.store hslot hstore) fun q hq ↦ ?_)
    rw [Compiled.slotOf_of_store hstore]
    exact hplanned q (List.mem_cons_of_mem p hq)

def Operation.IsSigning : Operation → Prop
  | addSignature _ _ | sign _ => True
  | add _ | setReference _ | fetchReference _ | submit => False

def Step.stored : Step → List (Address × Signature)
  | ⟨.addSignature signer signature, _, some (.ok _)⟩ => [(signer, signature)]
  | ⟨.sign _, exchanges, _⟩ => exchanges.filterMap Exchange.stored?
  | _ => []

/-- Steps that collect signatures, in any order, some of them perhaps in vain. -/
inductive Schedule (a : Assembler) : List Step → Assembler → Prop
  | start : Schedule a [] a
  | step {steps : List Step} {a' a'' : Assembler} {operation : Operation}
      {exchanges : List Exchange}
      {result : Option (Except ClientError (Option BlockReference))} (h : Schedule a steps a')
      (hsigning : operation.IsSigning) (htrace : (operation.act a').Trace exchanges a'' result) :
      Schedule a (steps ++ [⟨operation, exchanges, result⟩]) a''

theorem Schedule.run (h : Schedule a steps a') (hrun : Run feePayer before a) :
    Run feePayer (before ++ steps) a' := by
  induction h with
  | start =>
    rw [List.append_nil]
    exact hrun
  | step _ _ htrace ih =>
    rw [← List.append_assoc]
    exact ih.step htrace

theorem collects_of_trace {operation : Operation}
    {result : Option (Except ClientError (Option BlockReference))} (hphase : a.IsIn (.compiled c))
    (hsound : c.Sound instructions feePayer) (hsigning : operation.IsSigning)
    (h : (operation.act a).Trace exchanges a' result) :
    ∃ c', a' = a.enter (.compiled c') ∧
      c.Collects (Step.stored ⟨operation, exchanges, result⟩) c' := by
  have hstay := hphase.enter_eq.symm
  cases operation with
  | add | setReference | fetchReference | submit => exact hsigning.elim
  | addSignature signer signature =>
    obtain ⟨-, ⟨e, -, ha, hr⟩ | ⟨hok, hr⟩⟩ := trace_map_change_iff.1 h
    · subst hr
      exact ⟨c, ha.trans hstay, .refl c⟩
    · subst hr
      obtain ⟨d, slot, c', hd, hslot, hstore, ha⟩ := exists_store_of_addSignature hphase hok
      cases hd
      exact ⟨c', ha, hsound.collects_store hslot hstore⟩
  | sign signers =>
    obtain ⟨r, hact, -⟩ := trace_map_iff.1 h
    rcases trace_sign_of_compiled hphase hact with
      ⟨_, -, -, he, ha, -⟩ | ⟨planned, c', -, hslots, hsigns, ha⟩
    · subst he
      exact ⟨c, ha.trans hstay, .refl c⟩
    · exact ⟨c', ha, hsigns.collects hsound hslots⟩

theorem Schedule.collects (h : Schedule a steps a') (hrun : Run feePayer before a)
    (hphase : a.IsIn (.compiled c)) :
    ∃ c', a' = a.enter (.compiled c') ∧ c.Collects (steps.flatMap Step.stored) c' := by
  induction h with
  | start => exact ⟨c, hphase.enter_eq.symm, .refl c⟩
  | step h hsigning htrace ih =>
    obtain ⟨c₁, rfl, hcollects⟩ := ih
    have hphase₁ := isIn_enter a (.compiled c₁)
    -- the run up to here keeps the message sound, so that the place of a signer is the only one
    obtain ⟨c', rfl, hstep⟩ :=
      collects_of_trace hphase₁ ((h.run hrun).sound hphase₁) hsigning htrace
    rw [List.flatMap_append, List.flatMap_singleton]
    exact ⟨c', rfl, hcollects.append hstep⟩

theorem Schedule.eq_filled (h : Schedule a steps a') (hrun : Run feePayer before a)
    (hphase : a.IsIn (.compiled c))
    (hall : ∀ key ∈ c.message.signerKeys,
      ∃ signature, (key, signature) ∈ steps.flatMap Step.stored)
    (hsame : ∀ p ∈ steps.flatMap Step.stored, p.2 = sig p.1) :
    a' = a.enter (.compiled { c with slots := (c.message.signerKeys.map sig).map some }) := by
  obtain ⟨c', ha', hcollects⟩ := h.collects hrun hphase
  rw [ha', hcollects.keeps,
    hcollects.slots_eq (hrun.sound hphase).length_slots.1 hall hsame]

theorem exists_of_messageBytes (hphase : a.IsIn phase) (h : a.messageBytes = .ok bytes) :
    ∃ c, phase = .compiled c ∧ c.bytes = bytes := by
  cases phase with
  | building | awaiting | submitted =>
    rw [messageBytes, compiled, hphase.compiled?_eq] at h
    cases h
  | compiled c => exact ⟨c, rfl, Except.ok.inj (hphase.messageBytes_eq.symm.trans h)⟩

theorem Run.exists_of_messageBytes (hrun : Run feePayer before a) (h : a.messageBytes = .ok bytes) :
    ∃ c, a.IsIn (.compiled c) ∧ c.bytes = bytes ∧ a.requiredSigners = c.message.signerKeys := by
  obtain ⟨phase, hphase⟩ := hrun.exists_phase
  obtain ⟨c, rfl, hbytes⟩ := Assembler.exists_of_messageBytes hphase h
  exact ⟨c, hphase, hbytes, hphase.requiredSigners_eq⟩

theorem ready_of_filled (hsound : c.Sound instructions feePayer) {signatures : List Signature}
    (hphase : a.IsIn (.compiled c)) (hslots : c.slots = signatures.map some) :
    a.stage = .readyToSubmit ∧ a.signatures = signatures.map some ∧
    ∃ wire, a.serialize = .ok wire ∧ Wire.split wire = .ok (signatures, c.bytes) := by
  have hcomplete : c.isComplete = true := by
    rw [Compiled.isComplete_iff, hslots]
    simp
  have hlt := hsound.length_slots.2.2
  rw [hslots, List.length_map] at hlt
  have hserialize : Wire.serialize signatures c.bytes = .ok _ :=
    Wire.serialize_eq_ok_iff.2 ⟨by omega, rfl⟩
  refine ⟨?_, hphase.signatures_eq.trans hslots, _, ?_, Wire.split_of_serialize hserialize⟩
  · rw [hphase.stage_eq, Phase.stage, hcomplete]
    rfl
  · rw [hphase.serialize_eq]
    exact Compiled.wire_eq_ok_iff.2 ⟨signatures, hslots, hserialize⟩

/-- From a compiled message, any two schedules in which the signature of each required signer is
stored, always the same one, lead to the same state. It is ready to be submitted, and its
transaction holds in the place of each required signer their signature. -/
theorem Run.order_irrelevant (hrun : Run feePayer before a) (hbytes : a.messageBytes = .ok bytes)
    (h₁ : Schedule a steps₁ a₁) (h₂ : Schedule a steps₂ a₂)
    (hall₁ : ∀ key ∈ a.requiredSigners, ∃ signature, (key, signature) ∈ steps₁.flatMap Step.stored)
    (hall₂ : ∀ key ∈ a.requiredSigners, ∃ signature, (key, signature) ∈ steps₂.flatMap Step.stored)
    (hsame : ∀ p ∈ (steps₁ ++ steps₂).flatMap Step.stored, p.2 = sig p.1) :
    a₁ = a₂ ∧ a₁.stage = .readyToSubmit ∧ a₁.signatures = (a.requiredSigners.map sig).map some ∧
    ∃ wire, a₁.serialize = .ok wire ∧ a₂.serialize = .ok wire ∧
      Wire.split wire = .ok (a.requiredSigners.map sig, bytes) ∧
      ∀ key ∈ a.requiredSigners, key.verifies bytes (sig key) = true := by
  obtain ⟨c, hphase, hc, hrequired⟩ := hrun.exists_of_messageBytes hbytes
  rw [hrequired] at hall₁ hall₂ ⊢
  rw [List.flatMap_append, List.forall_mem_append] at hsame
  have ha₁ := h₁.eq_filled hrun hphase hall₁ hsame.1
  have ha₂ := h₂.eq_filled hrun hphase hall₂ hsame.2
  have heq : a₁ = a₂ := ha₁.trans ha₂.symm
  have hphase₁ : a₁.IsIn (.compiled _) := ha₁ ▸ isIn_enter a _
  have hsound := (h₁.run hrun).sound hphase₁
  obtain ⟨hstage, hsignatures, wire, hserialize, hsplit⟩ := ready_of_filled hsound hphase₁ rfl
  refine ⟨heq, hstage, hsignatures, wire, hserialize, heq ▸ hserialize, hc ▸ hsplit, ?_⟩
  have hverifies := hsound.verifies
  rw [List.forall₂_map_right_iff, List.forall₂_map_right_iff, List.forall₂_same] at hverifies
  intro key hkey
  rw [← hc]
  exact hverifies key hkey _ rfl

theorem Run.order_irrelevant_device :
    let payer : Signer :=
      ⟨0, .ofNat 0x8a88e3dd7409f195fd52db2d3cba5d72ca6709bf1d94121bf3748801b40f6f5c, .inMemory⟩
    let device : Signer :=
      ⟨1, .ofNat 0x8139770ea87d175f56a35466c34c7ecccb8d8a91b4ee37a25df60f5b8fc9b394, .hardware⟩
    let first : Signature :=
      ⟨Bytes.bigEndian 32 0x4647efe000d0731194421046f67dd1cb831176db58734fe33ccc230c1752126e ++
        Bytes.bigEndian 32 0xb300b46657b89a0ef93320d45004e33a7631fd5a35d3706e53afce5b81320608, rfl⟩
    let second : Signature :=
      ⟨Bytes.bigEndian 32 0xa3fe7bcdc53cef3e8987c43101500a23f99eecb27b01afbf5778fd95e50aa380 ++
        Bytes.bigEndian 32 0x491703a7a6d8f4b97aec6dbc282ac7958f70ca7a228c7a0a517c7b5651e88d0d, rfl⟩
    let bytes : Bytes :=
      [2, 1, 1, 3] ++ payer.address.toList ++ device.address.toList ++ .replicate 32 2 ++
      .replicate 32 3 ++ [1, 2, 1, 1, 1, 7]
    let together : List Step :=
      [⟨.sign [device, payer], [⟨.sign payer bytes, some (Except.ok first)⟩,
      ⟨.sign device bytes, some (Except.ok second)⟩], some (.ok none)⟩]
    let apart : List Step := [⟨.addSignature device.address second, [], some (.ok none)⟩,
      ⟨.sign [device, payer], [⟨.sign payer bytes, some (Except.ok first)⟩,
        ⟨.sign device bytes, some (Except.error (.signerRejected .device))⟩],
        some (.error (.signerRejected .device))⟩]
    ∃ before a a₁ a₂ wire, Run payer.address before a ∧ a.messageBytes = .ok bytes ∧
      Schedule a together a₁ ∧
      Schedule a apart a₂ ∧ a₁.serialize = .ok wire ∧ a₂.serialize = .ok wire ∧
      Wire.split wire = .ok ([first, second], bytes) := by
  intro payer device first second bytes together apart
  let instruction : Instruction := ⟨⟨.replicate 32 2⟩, [.readonlySigner device.address], [7]⟩
  let reference : BlockReference := ⟨.replicate 32 3, 42⟩
  let keys : List Address := [payer.address, device.address, ⟨.replicate 32 2⟩]
  let m : Message := ⟨2, 1, 1, keys, .replicate 32 3, [⟨2, [1], [7]⟩]⟩
  let c (slots : List (Option Signature)) : Compiled := ⟨reference, m, bytes, slots⟩
  let a (phase : Phase) : Assembler := ⟨payer.address, [instruction], phase.stage, phase.compiled?⟩
  let b (slots : List (Option Signature)) : Assembler := a (.compiled (c slots))
  have hreference : (a .building).setReference reference = .ok (b [none, none]) := by decide +kernel
  have hfirst : payer.address.verifies bytes first = true := by decide +kernel
  have hsecond : device.address.verifies bytes second = true := by decide +kernel
  have hne : device.address ≠ payer.address := by decide +kernel
  have hslot : m.signerKeys.idxOf? payer.address = some 0 ∧
      m.signerKeys.idxOf? device.address = some 1 := by
    decide +kernel
  have hslotOf (slots : List (Option Signature)) :
      (c slots).slotOf payer.address = .ok 0 ∧ (c slots).slotOf device.address = .ok 1 := by
    rw [Compiled.slotOf, Compiled.slotOf, hslot.1, hslot.2]
    exact ⟨rfl, rfl⟩
  have hsort : sortPlan [⟨1, device⟩, ⟨0, payer⟩] = [⟨0, payer⟩, ⟨1, device⟩] := rfl
  -- of the keys and the signatures only these facts matter from here on
  clear_value payer device first second bytes
  have hplan (slots : List (Option Signature)) :
      plan (c slots).slotOf [device, payer] = .ok [⟨0, payer⟩, ⟨1, device⟩] := by
    refine Except.bind_eq_ok_iff.2 ⟨_, Except.mapM_eq_ok_iff.2 ?_, congrArg Except.ok hsort⟩
    exact .cons (Except.bind_eq_ok_iff.2 ⟨1, (hslotOf slots).2, rfl⟩)
      (.cons (Except.bind_eq_ok_iff.2 ⟨0, (hslotOf slots).1, rfl⟩) .nil)
  have hpayer (slot : Option Signature) :
      (c [none, slot]).store 0 payer.address first = .ok (c [some first, slot]) :=
    Compiled.store_eq_ok_iff.2 ⟨hfirst, rfl⟩
  have hdevice (slot : Option Signature) :
      (c [slot, none]).store 1 device.address second = .ok (c [slot, some second]) :=
    Compiled.store_eq_ok_iff.2 ⟨hsecond, rfl⟩
  have hhanded :
      (b [none, none]).addSignature device.address second = .ok (b [none, some second]) :=
    (IsIn.addSignature_of_slot ⟨rfl, rfl⟩ (hslotOf _).2).trans
      (IsIn.storeSignature_of_store ⟨rfl, rfl⟩ (hdevice none))
  have hbuilding : Run payer.address [⟨.add [instruction], [], some (.ok none)⟩] (a .building) :=
    .step .start (Attempt.trace_map_change_iff.2 ⟨rfl, .inr ⟨rfl, rfl⟩⟩)
  have hset : ((Operation.setReference reference).act (a .building)).Trace [] (b [none, none])
      (some (.ok (some reference))) :=
    Attempt.trace_map_change_iff.2 ⟨rfl, .inr ⟨hreference, rfl⟩⟩
  have htogether : Schedule (b [none, none]) together (b [some first, some second]) :=
    .step .start trivial (Attempt.trace_map_iff.2 ⟨_, trace_sign_of_signs ⟨rfl, rfl⟩ (hplan _)
      (.stored (hpayer none) (.stored (hdevice (some first)) (.done _))), rfl⟩)
  have hadd : ((Operation.addSignature device.address second).act (b [none, none])).Trace []
      (b [none, some second]) (some (.ok none)) :=
    Attempt.trace_map_change_iff.2 ⟨rfl, .inr ⟨hhanded, rfl⟩⟩
  have hdevice' :
      Schedule (b [none, none]) [⟨.addSignature device.address second, [], some (.ok none)⟩]
        (b [none, some second]) :=
    .step .start trivial hadd
  have hapart : Schedule (b [none, none]) apart (b [some first, some second]) :=
    hdevice'.step trivial (Attempt.trace_map_iff.2 ⟨_, trace_sign_of_signs ⟨rfl, rfl⟩ (hplan _)
      (.stored (hpayer (some second)) (.refused _ _ _ _)), rfl⟩)
  let sig (key : Address) : Signature := if key = payer.address then first else second
  have hstored₁ :
      together.flatMap Step.stored = [(payer.address, first), (device.address, second)] := by
    simp [together, Step.stored, Exchange.stored?_of_verifies hfirst,
      Exchange.stored?_of_verifies hsecond]
  have hstored₂ :
      apart.flatMap Step.stored = [(device.address, second), (payer.address, first)] := by
    simp [apart, Step.stored, Exchange.stored?_of_verifies hfirst, Exchange.stored?_error]
  have hsame : ∀ p ∈ (together ++ apart).flatMap Step.stored, p.2 = sig p.1 := by
    rw [List.flatMap_append, hstored₁, hstored₂]
    simp [sig, hne]
  have hsig : [payer.address, device.address].map sig = [first, second] := by
    simp [sig, hne]
  have hrequired : (b [none, none]).requiredSigners = [payer.address, device.address] := rfl
  obtain ⟨-, -, -, wire, hwire₁, hwire₂, hsplit, -⟩ :=
    Run.order_irrelevant (hbuilding.step hset) rfl
    htogether hapart (by simp [hrequired, hstored₁]) (by simp [hrequired, hstored₂]) hsame
  rw [hrequired, hsig] at hsplit
  exact ⟨_, _, _, _, wire, hbuilding.step hset, rfl, htogether, hapart, hwire₁, hwire₂, hsplit⟩

end Assembler

end ValidatorClient
