import ValidatorClient.Proofs.Assembler.Schedule
import ValidatorClient.Proofs.Occurrence

namespace ValidatorClient

open Ledger Attempt Process

variable {instructions : List Instruction} {feePayer : Address}

theorem zipWith_lookup_set {α β : Type} [DecidableEq α] {keys : List α} {slots : List (Option β)}
    {i : Nat} {key : α} (b : β) (entries : List (α × β)) (hkeys : keys.Nodup)
    (hkey : keys[i]? = some key) :
    keys.zipWith (fun k slot ↦ (entries.reverse.lookup k).or slot) (slots.set i (some b)) =
      keys.zipWith (fun k slot ↦ (((key, b) :: entries).reverse.lookup k).or slot) slots := by
  refine List.ext_getElem (by simp) fun j hj hj' ↦ ?_
  rw [List.length_zipWith] at hj
  have hlt : j < keys.length := by omega
  rw [List.getElem_zipWith, List.getElem_zipWith, List.getElem_set, lookup_reverse_cons,
    Option.or_assoc]
  refine congrArg _ ?_
  have hij : i = j ↔ keys[j] = key := by
    rw [← Option.some_inj (a := keys[j]), ← List.getElem?_eq_getElem hlt, ← hkey,
      List.getElem?_inj hlt hkeys, eq_comm]
  by_cases h : i = j
  · rw [if_pos h, if_pos (hij.1 h)]
    rfl
  · rw [if_neg h, if_neg (mt hij.2 h)]
    rfl

namespace Compiled

variable {c c' : Compiled} {stored : List (Address × Signature)}

/-- The places after some signatures were stored one after the other, the later ones over the
earlier ones. -/
def keeping (c : Compiled) (stored : List (Address × Signature)) : Compiled :=
  { c with slots :=
    c.message.signerKeys.zipWith (fun key slot ↦ (stored.reverse.lookup key).or slot) c.slots }

theorem slots_keeping (i : Nat) {key : Address} {slot : Option Signature}
    (hkey : c.message.signerKeys[i]? = some key) (hslot : c.slots[i]? = some slot) :
    (c.keeping stored).slots[i]? = some ((stored.reverse.lookup key).or slot) := by
  simp [keeping, List.getElem?_zipWith, hkey, hslot]

theorem keeping_nil (h : c.message.signerKeys.length = c.slots.length) : c.keeping [] = c := by
  have hslots : c.message.signerKeys.zipWith (fun _ slot ↦ slot) c.slots = c.slots := by
    refine List.ext_getElem (by simp [h]) fun i _ _ ↦ ?_
    simp
  simp [keeping, hslots]

theorem Sound.keeping_store (h : c.Sound instructions feePayer) {slot : Nat} {signer : Address}
    {signature : Signature} (hslot : c.slotOf signer = .ok slot)
    (hstore : c.store slot signer signature = .ok c') :
    c'.keeping stored = c.keeping ((signer, signature) :: stored) := by
  rw [(store_eq_ok_iff.1 hstore).2]
  simp only [keeping, zipWith_lookup_set signature stored (Message.nodup_signerKeys h.compiles)
    (getElem?_of_slotOf hslot)]

end Compiled

theorem Exchange.exists_of_stored? {e : Exchange} {key : Address} {signature : Signature}
    (h : e.stored? = some (key, signature)) :
    ∃ signer bytes, e = ⟨.sign signer bytes, some (Except.ok signature)⟩ ∧
      signer.address = key ∧ key.verifies bytes signature = true := by
  unfold stored? at h
  split at h
  · split_ifs at h with hverifies
    cases h
    exact ⟨_, _, rfl, rfl, hverifies⟩
  · cases h

theorem Exchange.exists_stored?_of_query {e : Exchange} {signer : Signer} {bytes : Bytes}
    (h : e.query = .sign signer bytes) (hsome : e.stored?.isSome = true) :
    ∃ signature, e = ⟨.sign signer bytes, some (Except.ok signature)⟩ ∧
      e.stored? = some (signer.address, signature) := by
  obtain ⟨⟨key, signature⟩, hstored⟩ := Option.isSome_iff_exists.1 hsome
  obtain ⟨signer', bytes', rfl, rfl, -⟩ := exists_of_stored? hstored
  cases h
  exact ⟨signature, rfl, hstored⟩

section Lookup

variable {exchanges : List Exchange} {e : Exchange} {key : Address} {signature : Signature}

theorem exists_of_lookup_stored
    (h : (exchanges.filterMap Exchange.stored?).reverse.lookup key = some signature) :
    ∃ before e after, exchanges = before ++ e :: after ∧ e.stored? = some (key, signature) ∧
      ∀ e' ∈ after, ∀ signature', e'.stored? ≠ some (key, signature') := by
  obtain ⟨stored, stored', heq, hne⟩ := lookup_reverse_eq_some_iff.1 h
  obtain ⟨before, rest, rfl, -, hrest⟩ := List.filterMap_eq_append_iff.1 heq
  obtain ⟨skipped, e, after, rfl, -, he, hafter⟩ := List.filterMap_eq_cons_iff.1 hrest
  refine ⟨before ++ skipped, e, after, by simp, he, fun e' he' signature' heq' ↦ ?_⟩
  refine hne (key, signature') ?_ rfl
  rw [← hafter]
  exact List.mem_filterMap.2 ⟨e', he', heq'⟩

theorem exists_lookup_of_stored (he : e ∈ exchanges) (h : e.stored? = some (key, signature)) :
    ∃ signature', (exchanges.filterMap Exchange.stored?).reverse.lookup key = some signature' := by
  rw [← Option.ne_none_iff_exists', lookup_reverse_ne_none_iff]
  exact List.mem_map_of_mem (f := (·.1)) (List.mem_filterMap.2 ⟨e, he, h⟩)

end Lookup

namespace Assembler

variable {c c' : Compiled} {before after exchanges : List Exchange} {planned : List Planned}
  {e : Exchange} {r : Option (Except ClientError Unit)}

theorem Signs.eq_keeping (h : Signs planned c exchanges c' r)
    (hsound : c.Sound instructions feePayer)
    (hplanned : ∀ p ∈ planned, c.slotOf p.signer.address = .ok p.slot) :
    c' = c.keeping (exchanges.filterMap Exchange.stored?) := by
  induction h with
  | done c | givenUp _ _ c | refused _ _ c _ =>
    exact (Compiled.keeping_nil hsound.length_slots.1).symm
  | wrong _ hwrong =>
    rw [List.filterMap_cons_none (Exchange.stored?_of_not_verifies hwrong)]
    exact (Compiled.keeping_nil hsound.length_slots.1).symm
  | @stored p rest c c₁ _ _ _ _ hstore _ ih =>
    have hslot := hplanned p List.mem_cons_self
    rw [List.filterMap_cons_some
        (Exchange.stored?_of_verifies (Compiled.store_eq_ok_iff.1 hstore).1),
      ← hsound.keeping_store hslot hstore]
    refine ih (hsound.store hslot hstore) fun q hq ↦ ?_
    rw [Compiled.slotOf_of_store hstore]
    exact hplanned q (List.mem_cons_of_mem p hq)

/-- An exchange with a signer that ends a round, and how the round then ends. -/
inductive Ends : Exchange → Option (Except ClientError Unit) → Prop
  | givenUp (signer : Signer) (bytes : Bytes) : Ends ⟨.sign signer bytes, none⟩ none
  | refused (signer : Signer) (bytes : Bytes) (e : ClientError) :
      Ends ⟨.sign signer bytes, some (Except.error e)⟩ (some (.error e))
  | wrong {signer : Signer} {bytes : Bytes} {signature : Signature}
      (h : signer.address.verifies bytes signature = false) :
      Ends ⟨.sign signer bytes, some (Except.ok signature)⟩
        (some (.error (.signerRejected (.wrongSignature signer.address))))

theorem Ends.stored?_eq_none (h : Ends e r) : e.stored? = none := by
  cases h with
  | givenUp | refused => rfl
  | wrong h => exact Exchange.stored?_of_not_verifies h

theorem Ends.ne_ok (h : Ends e r) : r ≠ some (.ok ()) := by
  cases h <;> exact nofun

theorem Signs.stored_or_ends (h : Signs planned c exchanges c' r) :
    (r = some (.ok ()) ∧ ∀ e ∈ exchanges, e.stored?.isSome = true) ∨
      ∃ before e, exchanges = before ++ [e] ∧ (∀ e ∈ before, e.stored?.isSome = true) ∧
        Ends e r := by
  induction h with
  | done => exact .inl ⟨rfl, by simp⟩
  | givenUp p => exact .inr ⟨[], _, rfl, by simp, .givenUp p.signer _⟩
  | refused p _ _ e => exact .inr ⟨[], _, rfl, by simp, .refused p.signer _ e⟩
  | wrong _ h => exact .inr ⟨[], _, rfl, by simp, .wrong h⟩
  | @stored p _ c _ _ signature _ _ hstore _ ih =>
    have hfirst :
        (Exchange.stored? ⟨.sign p.signer c.bytes, some (Except.ok signature)⟩).isSome = true := by
      rw [Exchange.stored?_of_verifies (Compiled.store_eq_ok_iff.1 hstore).1]
      rfl
    rcases ih with ⟨hr, hall⟩ | ⟨before, e, he, hall, hends⟩
    · exact .inl ⟨hr, List.forall_mem_cons.2 ⟨hfirst, hall⟩⟩
    · exact .inr ⟨_ :: before, e, by rw [he, List.cons_append],
        List.forall_mem_cons.2 ⟨hfirst, hall⟩, hends⟩

theorem Signs.stops (h : Signs planned c (before ++ e :: after) c' r) (he : e.stored? = none) :
    after = [] ∧ Ends e r := by
  rcases h.stored_or_ends with ⟨-, hall⟩ | ⟨stored, last, heq, hall, hends⟩
  · have hsome := hall e (by simp)
    rw [he] at hsome
    cases hsome
  · rcases Prompt.eq_or_mem_of_append_eq heq.symm with ⟨hafter, hlast⟩ | hmem
    · exact ⟨hafter, hlast ▸ hends⟩
    · have hsome := hall e hmem
      rw [he] at hsome
      cases hsome

/-- A round may be given up at any of its exchanges. -/
theorem Signs.cut (h : Signs planned c (before ++ e :: after) c' r) :
    ∃ c₁, Signs planned c (before ++ [⟨e.query, none⟩]) c₁ none := by
  generalize hexchanges : before ++ e :: after = exchanges at h
  induction h generalizing before with
  | done => cases before <;> cases hexchanges
  | givenUp p rest c | refused p rest c =>
    rcases List.append_eq_singleton_iff.1 hexchanges with ⟨rfl, heq⟩ | ⟨-, heq⟩
    · cases heq
      exact ⟨c, .givenUp p rest c⟩
    · cases heq
  | @wrong p c _ rest =>
    rcases List.append_eq_singleton_iff.1 hexchanges with ⟨rfl, heq⟩ | ⟨-, heq⟩
    · cases heq
      exact ⟨c, .givenUp p rest c⟩
    · cases heq
  | @stored p rest c _ _ _ _ _ hstore _ ih =>
    cases before with
    | nil =>
      cases hexchanges
      exact ⟨c, .givenUp p rest c⟩
    | cons first before =>
      obtain ⟨rfl, htail⟩ := List.cons_eq_cons.1 hexchanges
      obtain ⟨c₁, hsigns⟩ := ih htail
      exact ⟨c₁, .stored hstore hsigns⟩

end Assembler

end ValidatorClient
