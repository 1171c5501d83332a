import ValidatorClient.Proofs.Assembler.Keeping

namespace ValidatorClient

open Ledger Attempt Process

variable {instructions : List Instruction} {feePayer : Address}

/-- Kinds of signers with keys, in the order in which signers are asked: keys in memory before
devices. -/
def signingPlaces (keys : List Address) : List (SignerKind × Address) :=
  [.inMemory, .hardware].flatMap fun kind ↦ keys.map (kind, ·)

/-- The signers as they are asked; those of one kind and key stay in the order in which they are
listed. -/
def signingOrder (keys : List Address) (signers : List Signer) : List Signer :=
  (signingPlaces keys).flatMap fun place ↦ signers.filter fun signer ↦
    (signer.kind, signer.address) = place

section Order

variable {keys : List Address} {signers : List Signer}

theorem mem_signingPlaces_iff {place : SignerKind × Address} :
    place ∈ signingPlaces keys ↔ place.2 ∈ keys := by
  obtain ⟨kind, key⟩ := place
  cases kind <;> simp [signingPlaces]

theorem nodup_signingPlaces (h : keys.Nodup) : (signingPlaces keys).Nodup := by
  simp [signingPlaces, List.nodup_append, h.map fun _ _ heq ↦ (Prod.mk.inj heq).2]

theorem pairwise_kind_signingOrder :
    (signingOrder keys signers).Pairwise fun s t ↦ s.kind = .hardware → t.kind = .hardware := by
  have hplaces : (signingPlaces keys).Pairwise fun k l ↦ k.1 = .hardware → l.1 = .hardware := by
    simp [signingPlaces, List.pairwise_append, List.pairwise_map, List.pairwise_of_forall]
  have hkind {place : SignerKind × Address} {s : Signer}
      (hs : s ∈ signers.filter fun signer ↦ (signer.kind, signer.address) = place) :
      s.kind = place.1 := by
    rw [List.mem_filter, decide_eq_true_eq] at hs
    exact congrArg Prod.fst hs.2
  rw [signingOrder, List.pairwise_flatMap]
  refine ⟨fun place _ ↦ List.pairwise_of_forall_mem_list fun s hs t ht ↦ ?_,
    hplaces.imp fun himp s hs t ht ↦ ?_⟩
  · rw [hkind hs, hkind ht]
    exact id
  · rw [hkind hs, hkind ht]
    exact himp

end Order

namespace Assembler

variable {c c' : Compiled} {signers : List Signer} {p : Planned} {planned : List Planned}

def Planned.place (p : Planned) : SignerKind × Address := (p.signer.kind, p.signer.address)

theorem insertPlanned_append {before after : List Planned} (h : ∀ q ∈ before, p.isBefore q = false)
    (h' : ∀ q ∈ after, p.isBefore q = true) :
    insertPlanned p (before ++ after) = before ++ p :: after := by
  induction before with
  | nil =>
    cases after with
    | nil => rfl
    | cons q after => exact if_pos (h' q List.mem_cons_self)
  | cons q before ih =>
    rw [List.forall_mem_cons] at h
    rw [List.cons_append, insertPlanned, h.1, ih h.2]
    rfl

theorem insertPlanned_flatMap {before after : List (SignerKind × Address)}
    (hplaces : (before ++ p.place :: after).Nodup)
    (h : ∀ q ∈ planned, q.place ∈ before → p.isBefore q = false)
    (h' : ∀ q ∈ planned, q.place ∈ p.place :: after → p.isBefore q = true) :
    insertPlanned p ((before ++ p.place :: after).flatMap fun place ↦
      planned.filter (·.place = place)) =
      (before ++ p.place :: after).flatMap fun place ↦ (p :: planned).filter (·.place = place) := by
  have hne {place : SignerKind × Address} (hplace : p.place ≠ place) :
      (p :: planned).filter (·.place = place) = planned.filter (·.place = place) := by
    rw [List.filter_cons_of_neg (by simpa using hplace)]
  rw [List.nodup_middle, List.nodup_cons, List.mem_append, not_or] at hplaces
  rw [List.flatMap_append, List.flatMap_append, insertPlanned_append, List.flatMap_cons,
    List.flatMap_cons, List.filter_cons_of_pos (by simp), List.cons_append]
  · rw [List.flatMap_congr fun place hplace ↦ hne fun heq ↦ hplaces.1.1 (heq ▸ hplace),
      List.flatMap_congr fun place hplace ↦ hne fun heq ↦ hplaces.1.2 (heq ▸ hplace)]
  · intro q hq
    simp only [List.mem_flatMap, List.mem_filter, decide_eq_true_eq] at hq
    obtain ⟨place, hplace, hq, heq⟩ := hq
    exact h q hq (heq ▸ hplace)
  · intro q hq
    simp only [List.mem_flatMap, List.mem_filter, decide_eq_true_eq] at hq
    obtain ⟨place, hplace, hq, heq⟩ := hq
    exact h' q hq (heq ▸ hplace)

theorem isBefore_of_place_eq {keys : List Address} {q : Planned} (hkeys : keys.Nodup)
    (hp : keys[p.slot]? = some p.signer.address) (hq : keys[q.slot]? = some q.signer.address)
    (h : q.place = p.place) : p.isBefore q = true := by
  obtain ⟨hkind, haddress⟩ := Prod.mk.inj h
  have hslot : p.slot = q.slot :=
    (List.getElem?_inj (List.getElem?_eq_some_iff.1 hp).1 hkeys).1 (by rw [hp, hq, haddress])
  rw [Planned.isBefore, hkind]
  cases p.signer.kind <;> simp [hslot]

theorem pairwise_signingPlaces {keys : List Address} (hkeys : keys.Nodup) :
    (signingPlaces keys).Pairwise fun k l ↦ ∀ p q : Planned, p.place = k → q.place = l →
      keys[p.slot]? = some p.signer.address → keys[q.slot]? = some q.signer.address →
      p.isBefore q = true ∧ q.isBefore p = false := by
  have hkind (kind : SignerKind) : (keys.map (kind, ·)).Pairwise fun k l ↦ ∀ p q : Planned,
      p.place = k → q.place = l →
      keys[p.slot]? = some p.signer.address → keys[q.slot]? = some q.signer.address →
      p.isBefore q = true ∧ q.isBefore p = false := by
    rw [List.pairwise_map, List.pairwise_iff_getElem]
    intro i j hi hj hij p q hp hq hp' hq'
    obtain ⟨hpkind, hpkey⟩ := Prod.mk.inj hp
    obtain ⟨hqkind, hqkey⟩ := Prod.mk.inj hq
    have hpslot : i = p.slot :=
      (List.getElem?_inj hi hkeys).1 (by rw [hp', hpkey, List.getElem?_eq_getElem])
    have hqslot : j = q.slot :=
      (List.getElem?_inj hj hkeys).1 (by rw [hq', hqkey, List.getElem?_eq_getElem])
    rw [Planned.isBefore, Planned.isBefore, hpkind, hqkind]
    cases kind <;> simp <;> omega
  refine List.pairwise_append.2 ⟨hkind _, ?_, ?_⟩
  · simpa using hkind .hardware
  · intro k hk l hl p q hp hq _ _
    have hpkind : p.signer.kind = .inMemory := by
      obtain ⟨key, -, rfl⟩ := List.mem_map.1 hk
      exact congrArg Prod.fst hp
    have hqkind : q.signer.kind = .hardware := by
      obtain ⟨kind, hkind, hl⟩ := List.mem_flatMap.1 hl
      obtain ⟨key, -, rfl⟩ := List.mem_map.1 hl
      rw [List.mem_singleton.1 hkind] at hq
      exact congrArg Prod.fst hq
    rw [Planned.isBefore, Planned.isBefore, hpkind, hqkind]
    exact ⟨rfl, rfl⟩

theorem sortPlan_eq {keys : List Address} (hkeys : keys.Nodup)
    (h : ∀ p ∈ planned, keys[p.slot]? = some p.signer.address) :
    sortPlan planned = (signingPlaces keys).flatMap fun place ↦
      planned.filter (·.place = place) := by
  induction planned with
  | nil => simp [sortPlan]
  | cons p planned ih =>
    rw [List.forall_mem_cons] at h
    have hmem : p.place ∈ signingPlaces keys := mem_signingPlaces_iff.2 (List.mem_of_getElem? h.1)
    obtain ⟨before, after, hplaces⟩ := List.append_of_mem hmem
    have hpairwise := pairwise_signingPlaces hkeys
    have hnodup := nodup_signingPlaces hkeys
    rw [hplaces] at hpairwise hnodup
    rw [List.pairwise_append, List.pairwise_cons] at hpairwise
    obtain ⟨-, ⟨hafter, -⟩, hbefore⟩ := hpairwise
    change insertPlanned p (sortPlan planned) = _
    rw [ih h.2, hplaces]
    refine insertPlanned_flatMap hnodup (fun q hq hplace ↦ ?_) fun q hq hplace ↦ ?_
    · exact (hbefore _ hplace _ List.mem_cons_self q p rfl rfl (h.2 q hq) h.1).2
    · rcases List.mem_cons.1 hplace with heq | hplace
      · exact isBefore_of_place_eq hkeys h.1 (h.2 q hq) heq
      · exact (hafter _ hplace p q rfl rfl h.1 (h.2 q hq)).1

theorem signers_of_plan (hkeys : c.message.signerKeys.Nodup)
    (h : plan c.slotOf signers = .ok planned) :
    planned.map (·.signer) = signingOrder c.message.signerKeys signers := by
  obtain ⟨found, rfl, rfl, hslots⟩ := exists_sortPlan_of_plan h
  rw [sortPlan_eq hkeys fun p hp ↦ Compiled.getElem?_of_slotOf (hslots p hp),
    List.map_flatMap, signingOrder]
  refine List.flatMap_congr fun place _ ↦ ?_
  rw [List.filter_map]
  rfl

theorem exists_slotOf {key : Address} (h : key ∈ c.message.signerKeys) :
    ∃ slot, c.slotOf key = .ok slot := by
  cases hslot : c.slotOf key with
  | ok slot => exact ⟨slot, rfl⟩
  | error e => exact absurd h (Compiled.slotOf_eq_error hslot).1

theorem exists_plan (h : ∀ signer ∈ signers, signer.address ∈ c.message.signerKeys) :
    ∃ planned, plan c.slotOf signers = .ok planned := by
  cases hplan : plan c.slotOf signers with
  | ok planned => exact ⟨planned, rfl⟩
  | error e =>
    obtain ⟨signer, hsigner, hkey, -⟩ := plan_eq_error hplan
    exact absurd (h signer hsigner) hkey

theorem plan_of_unknown {before : List Signer} {signer : Signer} (after : List Signer)
    (hbefore : ∀ s ∈ before, s.address ∈ c.message.signerKeys)
    (h : signer.address ∉ c.message.signerKeys) :
    plan c.slotOf (before ++ signer :: after) = .error (.unknownSigner signer.address) := by
  refine Except.bind_eq_error_iff.2
    (.inl (Except.mapM_append_cons_eq_error after (fun s hs ↦ ?_) ?_))
  · obtain ⟨slot, hslot⟩ := exists_slotOf (hbefore s hs)
    exact ⟨⟨slot, s⟩, Except.bind_eq_ok_iff.2 ⟨slot, hslot, rfl⟩⟩
  · refine Except.bind_eq_error_iff.2 (.inl ?_)
    rw [Compiled.slotOf, List.idxOf?_eq_none_iff.2 h]

theorem mem_of_asked {keys : List Address} {bytes : Bytes} {queries : List Query}
    {device signer : Signer}
    (h : queries ++ [.sign device bytes] <+: (signingOrder keys signers).map (.sign · bytes))
    (hdevice : device.kind = .hardware) (hsigner : signer ∈ signingOrder keys signers)
    (hkind : signer.kind = .inMemory) : .sign signer bytes ∈ queries := by
  obtain ⟨rest, heq⟩ := h
  rw [List.append_assoc, eq_comm, List.map_eq_append_iff] at heq
  obtain ⟨first, last, horder, rfl, hlast⟩ := heq
  obtain ⟨other, later, rfl, hother, -⟩ := List.map_eq_cons_iff.1 hlast
  cases hother
  have hpairwise : (signingOrder keys signers).Pairwise _ := pairwise_kind_signingOrder
  rw [horder, List.pairwise_append, List.pairwise_cons] at hpairwise
  rw [horder, List.mem_append, List.mem_cons] at hsigner
  rcases hsigner with hfirst | rfl | hlater
  · exact List.mem_map_of_mem hfirst
  · cases hkind.symm.trans hdevice
  · cases hkind.symm.trans (hpairwise.2.1.1 signer hlater hdevice)

def Signed (a : Assembler) (key : Address) : Prop :=
  ∃ (slot : Nat) (signature : Signature),
    a.requiredSigners[slot]? = some key ∧ a.signatures[slot]? = some (some signature)

/-- What comes of asking required signers to sign a compiled message. -/
structure AsksInTurn (signers : List Signer) (bytes : Bytes) (a : Assembler)
    (exchanges : List Exchange) (a' : Assembler) (r : Option (Except ClientError Unit)) : Prop where
  order : (signingOrder a.requiredSigners signers).Perm signers
  queries : exchanges.map (·.query) <+: (signingOrder a.requiredSigners signers).map (.sign · bytes)
  kept : a'.requiredSigners = a.requiredSigners ∧ a'.messageBytes = .ok bytes
  devices :
    ∀ (before after : List Exchange) (device : Signer)
      (answer : Option (Query.sign device bytes).Answer),
    exchanges = before ++ ⟨.sign device bytes, answer⟩ :: after → device.kind = .hardware →
    ∃ waiting, (sign signers a).Trace (before ++ [⟨.sign device bytes, none⟩]) waiting none ∧
      ∀ signer ∈ signers, signer.kind = .inMemory → waiting.Signed signer.address
  refused : ∀ (before after : List Exchange) (signer : Signer) (e : ClientError),
    exchanges = before ++ ⟨.sign signer bytes, some (Except.error e)⟩ :: after →
    after = [] ∧ r = some (.error e)
  rejected : ∀ (before after : List Exchange) (signer : Signer) (signature : Signature),
    exchanges = before ++ ⟨.sign signer bytes, some (Except.ok signature)⟩ :: after →
    signer.address.verifies bytes signature = false →
    after = [] ∧ r = some (.error (.signerRejected (.wrongSignature signer.address)))
  completes :
      (∀ e ∈ exchanges, ∃ signer signature, e = ⟨.sign signer bytes, some (Except.ok signature)⟩ ∧
      signer.address.verifies bytes signature = true) →
    r = some (.ok ()) ∧
    exchanges.map (·.query) = (signingOrder a.requiredSigners signers).map (.sign · bytes) ∧
    ∀ (slot : Nat) (key : Address), a.requiredSigners[slot]? = some key →
      (key ∉ signers.map (·.address) → a'.signatures[slot]? = a.signatures[slot]?) ∧
      (key ∈ signers.map (·.address) → ∃ before signer signature after,
        exchanges = before ++ ⟨.sign signer bytes, some (Except.ok signature)⟩ :: after ∧
        signer.address = key ∧
          (∀ e ∈ after, ∀ other, e.query = .sign other bytes → other.address ≠ key) ∧
        a'.signatures[slot]? = some (some signature))

section Signs

variable {a : Assembler} {exchanges before after : List Exchange}
  {r : Option (Except ClientError Unit)}

theorem signed_of_stored (hsound : c.Sound instructions feePayer)
    {stored : List (Address × Signature)} {key : Address} {signature : Signature}
    (hkey : key ∈ c.message.signerKeys) (hstored : stored.reverse.lookup key = some signature) :
    Signed (a.enter (.compiled (c.keeping stored))) key := by
  obtain ⟨slot, hslot⟩ := List.mem_iff_getElem?.1 hkey
  have hlt : slot < c.slots.length := by
    rw [← hsound.length_slots.1]
    exact (List.getElem?_eq_some_iff.1 hslot).1
  refine ⟨slot, signature, hslot,
    (Compiled.slots_keeping slot hslot (List.getElem?_eq_getElem hlt)).trans ?_⟩
  rw [hstored, Option.some_or]

theorem mem_signerKeys_of_plan {signer : Signer} (hplan : plan c.slotOf signers = .ok planned)
    (hsigner : signer ∈ signers) : signer.address ∈ c.message.signerKeys := by
  obtain ⟨hperm, hslots⟩ := plan_eq_ok hplan
  obtain ⟨p, hp, rfl⟩ := List.mem_map.1 (hperm.mem_iff.2 hsigner)
  exact List.mem_of_getElem? (Compiled.getElem?_of_slotOf (hslots p hp))

theorem Signs.stored_before {e : Exchange} (h : Signs planned c (before ++ [e]) c' none) :
    ∀ e ∈ before, e.stored?.isSome = true := by
  rcases h.stored_or_ends with ⟨hr, -⟩ | ⟨stored, last, heq, hall, -⟩
  · cases hr
  · rwa [(List.append_singleton_inj.1 heq).1]

theorem exists_lookup_of_query {e : Exchange} {signer : Signer} {bytes : Bytes} (he : e ∈ exchanges)
    (hquery : e.query = .sign signer bytes) (hstored : e.stored?.isSome = true) :
    ∃ signature, (exchanges.filterMap Exchange.stored?).reverse.lookup signer.address =
      some signature := by
  obtain ⟨signature, -, hstored⟩ := Exchange.exists_stored?_of_query hquery hstored
  exact exists_lookup_of_stored he hstored

theorem Signs.last_answer (h : Signs planned c exchanges c' (some (.ok ())))
    (hsound : c.Sound instructions feePayer) (hplan : plan c.slotOf signers = .ok planned)
    {slot : Nat} {key : Address} (hkey : c.message.signerKeys[slot]? = some key) :
    (key ∉ signers.map (·.address) → c'.slots[slot]? = c.slots[slot]?) ∧
      (key ∈ signers.map (·.address) → ∃ before signer signature after,
        exchanges = before ++ ⟨.sign signer c.bytes, some (Except.ok signature)⟩ :: after ∧
        signer.address = key ∧
        (∀ e ∈ after, ∀ other, e.query = .sign other c.bytes → other.address ≠ key) ∧
        c'.slots[slot]? = some (some signature)) := by
  obtain ⟨hperm, hslots⟩ := plan_eq_ok hplan
  have hall : ∀ e ∈ exchanges, e.stored?.isSome = true := by
    rcases h.stored_or_ends with ⟨-, hall⟩ | ⟨_, _, _, _, hends⟩
    · exact hall
    · exact absurd rfl hends.ne_ok
  have hlt : slot < c.slots.length := by
    rw [← hsound.length_slots.1]
    exact (List.getElem?_eq_some_iff.1 hkey).1
  have hslot := List.getElem?_eq_getElem hlt
  rw [h.eq_keeping hsound hslots, Compiled.slots_keeping slot hkey hslot, hslot]
  constructor
  · intro hnot
    cases hlookup : (exchanges.filterMap Exchange.stored?).reverse.lookup key with
    | none => rfl
    | some signature =>
      obtain ⟨before, e, after, rfl, he, -⟩ := exists_of_lookup_stored hlookup
      obtain ⟨signer, bytes, rfl, rfl, -⟩ := Exchange.exists_of_stored? he
      obtain ⟨signer', hsigner, hquery⟩ :=
        h.query_of_mem hperm ⟨.sign signer bytes, some (Except.ok signature)⟩ (by simp)
      cases hquery
      exact absurd (List.mem_map_of_mem hsigner) hnot
  · intro hmem
    obtain ⟨signer, hsigner, rfl⟩ := List.mem_map.1 hmem
    have hasked : .sign signer c.bytes ∈ exchanges.map (·.query) :=
      (h.perm_of_ok hperm).mem_iff.2 (List.mem_map_of_mem hsigner)
    obtain ⟨e, he, hquery⟩ := List.mem_map.1 hasked
    obtain ⟨signature, hlookup⟩ := exists_lookup_of_query he hquery (hall e he)
    obtain ⟨before, last, after, rfl, hlast, hafter⟩ := exists_of_lookup_stored hlookup
    obtain ⟨signer', bytes, rfl, haddress, -⟩ := Exchange.exists_of_stored? hlast
    obtain ⟨_, -, hquery'⟩ :=
      h.query_of_mem hperm ⟨.sign signer' bytes, some (Except.ok signature)⟩ (by simp)
    cases hquery'
    refine ⟨before, signer', signature, after, rfl, haddress, fun e' he' other hother heq ↦ ?_, ?_⟩
    · obtain ⟨signature', -, hstored⟩ :=
        Exchange.exists_stored?_of_query hother (hall e' (by simp [he']))
      exact hafter e' he' signature' (heq ▸ hstored)
    · rw [hlookup, Option.some_or]

theorem Signs.asksInTurn {a : Assembler} (hphase : a.IsIn (.compiled c))
    (hsound : c.Sound instructions feePayer) (hplan : plan c.slotOf signers = .ok planned)
    (h : Signs planned c exchanges c' r) :
    AsksInTurn signers c.bytes a exchanges (a.enter (.compiled c')) r := by
  have hrequired := hphase.requiredSigners_eq
  have hsignatures := hphase.signatures_eq
  have hslots := (plan_eq_ok hplan).2
  have hkeeping := h.eq_keeping hsound hslots
  have horder := signers_of_plan (Message.nodup_signerKeys hsound.compiles) hplan
  have hperm : (signingOrder c.message.signerKeys signers).Perm signers :=
    horder ▸ (plan_eq_ok hplan).1
  have hqueries : planned.map (fun p ↦ Query.sign p.signer c.bytes) =
      (signingOrder c.message.signerKeys signers).map (.sign · c.bytes) := by
    rw [← horder, List.map_map]
    rfl
  constructor
  case order => rwa [hrequired]
  case queries =>
    rw [hrequired, ← hqueries]
    exact h.asked.1
  case kept =>
    subst hkeeping
    exact ⟨hrequired.symm, rfl⟩
  case devices =>
    intro before after device answer hexchanges hdevice
    rw [hexchanges] at h
    obtain ⟨c₁, hcut⟩ := h.cut
    refine ⟨_, trace_sign_of_signs hphase hplan hcut, fun signer hsigner hkind ↦ ?_⟩
    have hasked := hcut.asked.1
    rw [hqueries, List.map_append, List.map_singleton] at hasked
    obtain ⟨e, he, hquery⟩ :=
      List.mem_map.1 (mem_of_asked hasked hdevice (hperm.mem_iff.2 hsigner) hkind)
    obtain ⟨_, hstored⟩ :=
      exists_lookup_of_query (List.mem_append_left _ he) hquery (hcut.stored_before e he)
    rw [hcut.eq_keeping hsound hslots]
    refine signed_of_stored hsound ?_ hstored
    exact mem_signerKeys_of_plan hplan hsigner
  case refused =>
    intro before after signer e hexchanges
    rw [hexchanges] at h
    obtain ⟨hafter, hends⟩ := h.stops rfl
    cases hends
    exact ⟨hafter, rfl⟩
  case rejected =>
    intro before after signer signature hexchanges hwrong
    rw [hexchanges] at h
    obtain ⟨hafter, hends⟩ := h.stops (Exchange.stored?_of_not_verifies hwrong)
    cases hends
    exact ⟨hafter, rfl⟩
  case completes =>
    intro hall
    have hr : r = some (.ok ()) := by
      rcases h.stored_or_ends with ⟨hr, -⟩ | ⟨before, e, hexchanges, -, hends⟩
      · exact hr
      · obtain ⟨signer, signature, he, hverifies⟩ := hall e (by simp [hexchanges])
        have hnone := hends.stored?_eq_none
        rw [he, Exchange.stored?_of_verifies hverifies] at hnone
        cases hnone
    subst hr
    refine ⟨rfl, ?_, fun slot key hkey ↦ ?_⟩
    · rw [hrequired, ← hqueries]
      exact h.asked.2 rfl
    · rw [hsignatures]
      exact h.last_answer hsound hplan (hrequired ▸ hkey)

end Signs

/-- A fee payer signs with a key that is in memory and on a device, and the device refuses. -/
theorem exists_refusing_device :
    ∃ (key : Address) (signature : Signature) (bytes : Bytes) (steps : List Step)
      (a a' : Assembler),
    let payer : Signer := ⟨0, key, .inMemory⟩
    let device : Signer := ⟨1, key, .hardware⟩
    key ≠ ⟨.replicate 32 4⟩ ∧ Run key steps a ∧ a.messageBytes = .ok bytes ∧
    a.requiredSigners = [key] ∧ a.missingSigners = [key] ∧
    (sign [device, payer] a).Trace [⟨.sign payer bytes, some (Except.ok signature)⟩,
      ⟨.sign device bytes, some (Except.error (.signerRejected .device))⟩] a'
      (some (.error (.signerRejected .device))) := by
  let key : Address := .ofNat 0x8a88e3dd7409f195fd52db2d3cba5d72ca6709bf1d94121bf3748801b40f6f5c
  let signature : Signature :=
    ⟨Bytes.bigEndian 32 0xbfed086cb3e1e3681d919be5ff29b5f9ec0fccc2bffe25e516f7707c2f3e1d56 ++
      Bytes.bigEndian 32 0xb22b38d3c1eb5884fcc71fc3d4935c0e07aebef6704d3d74ec71cd60549f4506, rfl⟩
  let bytes : Bytes :=
    [1, 0, 1, 2] ++ key.toList ++ .replicate 32 2 ++ .replicate 32 3 ++ [1, 1, 0, 1, 7]
  let m : Message := ⟨1, 0, 1, [key, ⟨.replicate 32 2⟩], .replicate 32 3, [⟨1, [], [7]⟩]⟩
  let c (slot : Option Signature) : Compiled := ⟨⟨.replicate 32 3, 42⟩, m, bytes, [slot]⟩
  let a (phase : Phase) : Assembler :=
    ⟨key, [⟨⟨.replicate 32 2⟩, [], [7]⟩], phase.stage, phase.compiled?⟩
  have hreference :
      (a .building).setReference ⟨.replicate 32 3, 42⟩ = .ok (a (.compiled (c none))) := by
    decide +kernel
  have hverifies : key.verifies bytes signature = true := by decide +kernel
  have hne : key ≠ ⟨.replicate 32 4⟩ := by decide +kernel
  -- of the key and the signature only these facts matter from here on
  clear_value key signature bytes
  have hslot : (c none).slotOf key = .ok 0 := by
    simp [c, m, Compiled.slotOf, Message.signerKeys, List.idxOf?_cons]
  have hplan : plan (c none).slotOf [⟨1, key, .hardware⟩, ⟨0, key, .inMemory⟩] =
      .ok [⟨0, ⟨0, key, .inMemory⟩⟩, ⟨0, ⟨1, key, .hardware⟩⟩] := by
    refine Except.bind_eq_ok_iff.2 ⟨[⟨0, ⟨1, key, .hardware⟩⟩, ⟨0, ⟨0, key, .inMemory⟩⟩],
      Except.mapM_eq_ok_iff.2 ?_, rfl⟩
    exact .cons (Except.bind_eq_ok_iff.2 ⟨0, hslot, rfl⟩)
      (.cons (Except.bind_eq_ok_iff.2 ⟨0, hslot, rfl⟩) .nil)
  have hstore : (c none).store 0 key signature = .ok (c (some signature)) :=
    Compiled.store_eq_ok_iff.2 ⟨hverifies, rfl⟩
  exact ⟨key, signature, bytes, _, _, _, hne, run_setReference hreference, rfl, rfl, rfl,
    trace_sign_of_signs ⟨rfl, rfl⟩ hplan (.stored hstore (.refused _ _ _ _))⟩

/-- If someone's signature is not wanted nobody is asked. Otherwise all are, keys in memory before
devices and each kind in the order of the places, until one of them fails. -/
theorem Run.asks_in_turn {steps : List Step} {a : Assembler} {bytes : Bytes}
    (hrun : Run feePayer steps a) (hbytes : a.messageBytes = .ok bytes) (signers : List Signer) :
    (∀ before signer after, signers = before ++ signer :: after →
      (∀ s ∈ before, s.address ∈ a.requiredSigners) →
      signer.address ∉ a.requiredSigners →
        sign signers a = .done a (.error (.unknownSigner signer.address))) ∧
    ((∀ signer ∈ signers, signer.address ∈ a.requiredSigners) → ∀ exchanges a' r,
      (sign signers a).Trace exchanges a' r → AsksInTurn signers bytes a exchanges a' r) := by
  obtain ⟨c, hphase, rfl, hrequired⟩ := hrun.exists_of_messageBytes hbytes
  rw [hrequired]
  constructor
  · intro before signer after hsigners hbefore hkey
    rw [hsigners]
    exact sign_of_plan_error hphase (plan_of_unknown after hbefore hkey)
  · intro hall exchanges a' r h
    obtain ⟨planned, hplan⟩ := exists_plan hall
    rw [sign_of_plan hphase hplan] at h
    obtain ⟨c', hsigns, rfl⟩ := signs_of_trace hphase h
    exact hsigns.asksInTurn hphase (hrun.sound hphase) hplan

theorem Run.asks_in_turn_device :
    ∃ (key : Address) (signature : Signature) (bytes : Bytes) (steps : List Step)
      (a waiting : Assembler),
    let payer : Signer := ⟨0, key, .inMemory⟩
    let device : Signer := ⟨1, key, .hardware⟩
    let stranger : Signer := ⟨2, ⟨.replicate 32 4⟩, .inMemory⟩
    Run key steps a ∧ a.messageBytes = .ok bytes ∧
    (sign [device, payer] a).Trace
      [⟨.sign payer bytes, some (Except.ok signature)⟩, ⟨.sign device bytes, none⟩]
      waiting none ∧ waiting.Signed key ∧
    sign [device, stranger, payer] a = .done a (.error (.unknownSigner stranger.address)) := by
  obtain ⟨key, signature, bytes, steps, a, a', hne, hrun, hbytes, hrequired, -, htrace⟩ :=
    exists_refusing_device
  have hasks := (Run.asks_in_turn hrun hbytes _).2 (by simp [hrequired]) _ _ _ htrace
  obtain ⟨waiting, hwaiting, hsigned⟩ := hasks.devices [_] [] _ _ rfl rfl
  have hunknown :=
    (Run.asks_in_turn hrun hbytes _).1 [⟨1, key, .hardware⟩] ⟨2, ⟨.replicate 32 4⟩, .inMemory⟩
      [⟨0, key, .inMemory⟩] rfl (by simp [hrequired]) (by simpa [hrequired] using hne.symm)
  exact ⟨key, signature, bytes, steps, a, waiting, hrun, hbytes, hwaiting,
    hsigned ⟨0, key, .inMemory⟩ (by simp) rfl, hunknown⟩

end Assembler

end ValidatorClient
