import Mathlib.Algebra.Group.Nat.Defs
import ValidatorClient.Program.Resolve
import ValidatorClient.Proofs.Except

namespace ValidatorClient.Program

open Ledger

variable {derive : UInt32 → Except ClientError Address} {target : Address} {bound : Nat}
  {n : UInt32} {e : ClientError}

/-- The number has an address, but not the one that is looked for. -/
def Misses (derive : UInt32 → Except ClientError Address) (target : Address) (n : UInt32) : Prop :=
  ∃ a, derive n = .ok a ∧ a ≠ target

/-- Of the numbers below the bound, the greatest that has the address or none at all. -/
structure Stops (derive : UInt32 → Except ClientError Address) (target : Address) (bound : Nat)
    (n : UInt32) : Prop where
  lt : n.toNat < bound
  not_misses : ¬ Misses derive target n
  above : ∀ m, n < m → m.toNat < bound → Misses derive target m

def recorded (derive : UInt32 → Except ClientError Address) (n : UInt32) :
    ExceptT ClientError (StateM (List UInt32)) Address :=
  fun visited ↦ (derive n, visited ++ [n])

def downTo (last : UInt32) (bound : Nat) : List UInt32 :=
  ((List.range' last.toNat (bound - last.toNat)).map UInt32.ofNat).reverse

theorem misses_of_ne {a : Address} (h : derive n = .ok a) (hne : a ≠ target) :
    Misses derive target n :=
  ⟨a, h, hne⟩

theorem not_misses_of_target (h : derive n = .ok target) : ¬ Misses derive target n := by
  intro hmisses
  obtain ⟨a, ha, hne⟩ := hmisses
  rw [h] at ha
  cases ha
  exact hne rfl

theorem not_misses_of_error (h : derive n = .error e) : ¬ Misses derive target n := by
  intro hmisses
  obtain ⟨a, ha, -⟩ := hmisses
  rw [h] at ha
  cases ha

theorem Stops.unique {m : UInt32} (h : Stops derive target bound n)
    (h' : Stops derive target bound m) : n = m := by
  rcases Nat.lt_trichotomy n.toNat m.toNat with hlt | heq | hlt
  · exact absurd (h.above m (UInt32.lt_iff_toNat_lt.2 hlt) h'.lt) h'.not_misses
  · exact UInt32.toNat_inj.1 heq
  · exact absurd (h'.above n (UInt32.lt_iff_toNat_lt.2 hlt) h.lt) h.not_misses

theorem downTo_self (k : Nat) (hk : (UInt32.ofNat k).toNat = k) :
    downTo (UInt32.ofNat k) (k + 1) = [UInt32.ofNat k] := by
  simp [downTo, hk]

theorem downTo_succ (h : n.toNat ≤ bound) :
    downTo n (bound + 1) = UInt32.ofNat bound :: downTo n bound := by
  have hsub : bound + 1 - n.toNat = bound - n.toNat + 1 := by omega
  have hlast : n.toNat + (bound - n.toNat) = bound := by omega
  simp [downTo, hsub, List.range'_concat, hlast]

example : downTo 3 9 = [8, 7, 6, 5, 4, 3] := by decide

section Recorded

variable {α β : Type} {x : ExceptT ClientError (StateM (List UInt32)) α}
  {f : α → ExceptT ClientError (StateM (List UInt32)) β} {visited visited' : List UInt32}

theorem bind_eq_of_ok {a : α} (h : x visited = (.ok a, visited')) :
    (x >>= f) visited = f a visited' := by
  change StateT.bind x (ExceptT.bindCont f) visited = f a visited'
  unfold StateT.bind
  rw [h]
  rfl

theorem bind_eq_of_error (h : x visited = (.error e, visited')) :
    (x >>= f) visited = (.error e, visited') := by
  change StateT.bind x (ExceptT.bindCont f) visited = (.error e, visited')
  unfold StateT.bind
  rw [h]
  rfl

theorem recorded_bind_of_ok {f : Address → ExceptT ClientError (StateM (List UInt32)) β}
    {a : Address} (h : derive n = .ok a) :
    (recorded derive n >>= f) visited = f a (visited ++ [n]) := by
  apply bind_eq_of_ok
  rw [recorded, h]

theorem recorded_bind_of_error {f : Address → ExceptT ClientError (StateM (List UInt32)) β}
    (h : derive n = .error e) : (recorded derive n >>= f) visited = (.error e, visited ++ [n]) := by
  apply bind_eq_of_error
  rw [recorded, h]

end Recorded

theorem search_of_misses (h : Misses derive target (UInt32.ofNat bound)) :
    searchBelow derive target (bound + 1) = searchBelow derive target bound ∧
      ∀ visited, searchBelow (recorded derive) target (bound + 1) visited =
        searchBelow (recorded derive) target bound (visited ++ [UInt32.ofNat bound]) := by
  obtain ⟨a, ha, hne⟩ := h
  constructor
  · rw [searchBelow, ha]
    exact if_neg hne
  · intro visited
    rw [searchBelow, recorded_bind_of_ok ha]
    exact congrFun (if_neg hne) _

theorem search_of_not_misses (h : ¬ Misses derive target (UInt32.ofNat bound)) :
    searchBelow derive target (bound + 1) =
        (derive (UInt32.ofNat bound)).map (fun _ ↦ some (UInt32.ofNat bound)) ∧
      ∀ visited, searchBelow (recorded derive) target (bound + 1) visited =
        ((derive (UInt32.ofNat bound)).map (fun _ ↦ some (UInt32.ofNat bound)),
          visited ++ [UInt32.ofNat bound]) := by
  cases hderive : derive (UInt32.ofNat bound) with
  | error e =>
    constructor
    · rw [searchBelow, hderive]
      rfl
    · intro visited
      rw [searchBelow, recorded_bind_of_error hderive]
      rfl
  | ok a =>
    have ha : a = target := by
      by_contra hne
      exact h (misses_of_ne hderive hne)
    constructor
    · rw [searchBelow, hderive]
      exact if_pos ha
    · intro visited
      rw [searchBelow, recorded_bind_of_ok hderive]
      exact congrFun (if_pos ha) _

/-- Below the bound either all numbers miss, or the search comes to an end at the one that stops it.
The numbers are looked at one by one, and none after that. -/
theorem search_ends (hbound : bound ≤ 2 ^ 32) (visited : List UInt32) :
    (∀ m : UInt32, m.toNat < bound → Misses derive target m) ∧
        searchBelow derive target bound = .ok none ∧
        searchBelow (recorded derive) target bound visited = (.ok none, visited ++ downTo 0 bound) ∨
      ∃ n, Stops derive target bound n ∧
        searchBelow derive target bound = (derive n).map (fun _ ↦ some n) ∧
        searchBelow (recorded derive) target bound visited =
          ((derive n).map (fun _ ↦ some n), visited ++ downTo n bound) := by
  induction bound generalizing visited with
  | zero =>
    have hnone : downTo 0 0 = [] := rfl
    left
    refine ⟨fun m hm ↦ absurd hm (Nat.not_lt_zero _), rfl, ?_⟩
    rw [hnone, List.append_nil]
    rfl
  | succ k ih =>
    have hk : (UInt32.ofNat k).toNat = k := UInt32.toNat_ofNat_of_lt hbound
    -- The greatest number below the bound is the first to be looked at.
    by_cases hmisses : Misses derive target (UInt32.ofNat k)
    · obtain ⟨hplain, hrecorded⟩ := search_of_misses hmisses
      have habove (m : UInt32) (hm : m.toNat < k + 1) : m.toNat < k ∨ Misses derive target m := by
        by_cases hmk : m.toNat = k
        · right
          rwa [← hmk, UInt32.ofNat_toNat] at hmisses
        · left
          omega
      rw [hplain, hrecorded]
      rcases ih (by omega) (visited ++ [UInt32.ofNat k]) with
        ⟨hall, hsearch, hvisited⟩ | ⟨n, hn, hsearch, hvisited⟩
      · left
        refine ⟨fun m hm ↦ (habove m hm).elim (hall m) id, hsearch, ?_⟩
        rw [hvisited, downTo_succ (Nat.zero_le k), List.append_assoc]
        rfl
      · right
        refine ⟨n, ⟨Nat.lt_succ_of_lt hn.lt, hn.not_misses, ?_⟩, hsearch, ?_⟩
        · intro m hnm hm
          exact (habove m hm).elim (hn.above m hnm) id
        · rw [hvisited, downTo_succ (Nat.le_of_lt hn.lt), List.append_assoc]
          rfl
    · obtain ⟨hplain, hrecorded⟩ := search_of_not_misses hmisses
      right
      refine ⟨UInt32.ofNat k, ⟨by omega, hmisses, ?_⟩, hplain, ?_⟩
      · intro m hm hlt
        rw [UInt32.lt_iff_toNat_lt] at hm
        omega
      · rw [hrecorded, downTo_self k hk]

theorem searchBelow_eq_none_iff (hbound : bound ≤ 2 ^ 32) :
    searchBelow derive target bound = .ok none ↔
    ∀ m : UInt32, m.toNat < bound → Misses derive target m := by
  rcases search_ends hbound [] with ⟨hall, hsearch, -⟩ | ⟨n, hn, hsearch, -⟩
  · exact ⟨fun _ ↦ hall, fun _ ↦ hsearch⟩
  · rw [hsearch]
    constructor
    · cases derive n <;> simp [Except.map]
    · exact fun hall ↦ absurd (hall n hn.lt) hn.not_misses

theorem searchBelow_eq_some_iff (hbound : bound ≤ 2 ^ 32) :
    searchBelow derive target bound = .ok (some n) ↔
    Stops derive target bound n ∧ derive n = .ok target := by
  rcases search_ends hbound [] with ⟨hall, hsearch, -⟩ | ⟨k, hk, hsearch, -⟩
  · rw [hsearch]
    constructor
    · simp
    · exact fun h ↦ absurd (hall n h.1.lt) h.1.not_misses
  · rw [hsearch]
    constructor
    · intro h
      cases hderive : derive k with
      | error e => simp [hderive, Except.map] at h
      | ok a =>
        obtain rfl : k = n := by simpa [hderive, Except.map] using h
        refine ⟨hk, ?_⟩
        by_contra hne
        exact hk.not_misses (misses_of_ne hderive fun ha ↦ hne (by rw [hderive, ha]))
    · intro h
      rw [hk.unique h.1, h.2]
      rfl

theorem searchBelow_eq_error_iff (hbound : bound ≤ 2 ^ 32) :
    searchBelow derive target bound = .error e ↔
    ∃ n, Stops derive target bound n ∧ derive n = .error e := by
  rcases search_ends hbound [] with ⟨hall, hsearch, -⟩ | ⟨k, hk, hsearch, -⟩
  · rw [hsearch]
    constructor
    · simp
    · intro h
      obtain ⟨n, hn, -⟩ := h
      exact absurd (hall n hn.lt) hn.not_misses
  · rw [hsearch]
    constructor
    · intro h
      refine ⟨k, hk, ?_⟩
      cases hderive : derive k with
      | error e' => simpa [hderive, Except.map] using h
      | ok a => simp [hderive, Except.map] at h
    · intro h
      obtain ⟨n, hn, hderive⟩ := h
      rw [hk.unique hn, hderive]
      rfl

section UpperBound

variable {upperBound : UInt32}

theorem lt_succ_upperBound_iff : n.toNat < upperBound.toNat + 1 ↔ n ≤ upperBound := by
  rw [UInt32.le_iff_toNat_le, Nat.lt_succ_iff]

theorem stops_upperBound_iff : Stops derive target (upperBound.toNat + 1) n ↔
    n ≤ upperBound ∧ ¬ Misses derive target n ∧ ∀ m, n < m → m ≤ upperBound →
      Misses derive target m := by
  constructor
  · intro h
    exact ⟨lt_succ_upperBound_iff.1 h.lt, h.not_misses,
      fun m hm hle ↦ h.above m hm (lt_succ_upperBound_iff.2 hle)⟩
  · intro h
    exact ⟨lt_succ_upperBound_iff.2 h.1, h.2.1,
      fun m hm hlt ↦ h.2.2 m hm (lt_succ_upperBound_iff.1 hlt)⟩

theorem numerationOf_eq_ok_iff :
    numerationOf derive target upperBound = .ok n ↔
      findNumeration derive target upperBound = .ok (some n) := by
  unfold numerationOf
  rw [Except.bind_eq_ok_iff]
  constructor
  · intro h
    obtain ⟨found, hfound, h⟩ := h
    cases found with
    | none => cases h
    | some m =>
      cases h
      exact hfound
  · exact fun h ↦ ⟨_, h, rfl⟩

theorem numerationOf_eq_error_iff : numerationOf derive target upperBound = .error e ↔
    findNumeration derive target upperBound = .error e ∨
      findNumeration derive target upperBound = .ok none ∧
        e = .notFound (.numeration upperBound target) := by
  unfold numerationOf
  rw [Except.bind_eq_error_iff]
  constructor
  · intro h
    rcases h with h | ⟨found, hfound, h⟩
    · exact .inl h
    · cases found with
      | some m => cases h
      | none =>
        cases h
        exact .inr ⟨hfound, rfl⟩
  · intro h
    rcases h with h | ⟨h, rfl⟩
    · exact .inl h
    · exact .inr ⟨none, h, rfl⟩

theorem derive_of_numerationOf (h : numerationOf derive target upperBound = .ok n) :
    derive n = .ok target :=
  ((searchBelow_eq_some_iff upperBound.toNat_lt).1 (numerationOf_eq_ok_iff.1 h)).2

theorem error_of_numerationOf (h : numerationOf derive target upperBound = .error e) :
    (∃ n, derive n = .error e) ∨ e = .notFound (.numeration upperBound target) := by
  rcases numerationOf_eq_error_iff.1 h with h | h
  · obtain ⟨n, -, hderive⟩ := (searchBelow_eq_error_iff upperBound.toNat_lt).1 h
    exact .inl ⟨n, hderive⟩
  · exact .inr h.2

theorem numerationOf_of_greatest (hn : derive n = .ok target) (hle : n ≤ upperBound)
    (hgreatest : ∀ m, n < m → m ≤ upperBound → derive m ≠ .ok target) :
    numerationOf derive target upperBound = .ok n ∨
      ∃ m e, n < m ∧ m ≤ upperBound ∧ derive m = .error e ∧
        numerationOf derive target upperBound = .error e := by
  rcases @search_ends derive target _ upperBound.toNat_lt [] with ⟨hall, -⟩ | ⟨k, hk, -⟩
  · exact absurd (hall n (lt_succ_upperBound_iff.2 hle)) (not_misses_of_target hn)
  · obtain ⟨hkle, hmisses, habove⟩ := stops_upperBound_iff.1 hk
    have hnk : n ≤ k := by
      by_contra hlt
      exact not_misses_of_target hn (habove n (UInt32.not_le.1 hlt) hle)
    by_cases heq : n = k
    · left
      apply numerationOf_eq_ok_iff.2
      apply (searchBelow_eq_some_iff upperBound.toNat_lt).2
      exact ⟨heq ▸ hk, hn⟩
    · right
      have hlt : n < k := UInt32.lt_of_le_of_ne hnk heq
      cases hderive : derive k with
      | ok a =>
        refine absurd (misses_of_ne hderive fun ha ↦ ?_) hmisses
        exact hgreatest k hlt hkle (by rw [hderive, ha])
      | error e =>
        refine ⟨k, e, hlt, hkle, hderive, ?_⟩
        apply numerationOf_eq_error_iff.2
        exact .inl ((searchBelow_eq_error_iff upperBound.toNat_lt).2 ⟨k, hk, hderive⟩)

theorem numerationOf_recorded {visited : List UInt32} {found : Except ClientError (Option UInt32)}
    (h : findNumeration derive target upperBound = found)
    (hrecorded : findNumeration (recorded derive) target upperBound [] = (found, visited)) :
    numerationOf (recorded derive) target upperBound [] =
      (numerationOf derive target upperBound, visited) := by
  unfold numerationOf
  rw [h]
  cases found with
  | error e => exact bind_eq_of_error hrecorded
  | ok found =>
    rw [bind_eq_of_ok hrecorded]
    cases found <;> rfl

/-- The number is the greatest, up to and including the bound, whose address is the target, if all
above it have other addresses. An error is that of the greatest number without an address, under the
same condition, or says that all numbers have addresses and none of them the target. The numbers
looked at are those from the bound downwards, without a gap, to the first that has the target as its
address or has none. -/
theorem numerationOf_exact (derive : UInt32 → Except ClientError Address) (target : Address)
    (upperBound : UInt32) :
    (∀ n, numerationOf derive target upperBound = .ok n ↔
      n ≤ upperBound ∧ derive n = .ok target ∧ ∀ m, n < m → m ≤ upperBound →
        Misses derive target m) ∧
    (∀ e, numerationOf derive target upperBound = .error e ↔
      (∃ n ≤ upperBound, derive n = .error e ∧ ∀ m, n < m → m ≤ upperBound →
        Misses derive target m) ∨
        (∀ n ≤ upperBound, Misses derive target n) ∧
        e = .notFound (.numeration upperBound target)) ∧
    ∃ last ≤ upperBound, numerationOf (recorded derive) target upperBound [] =
        (numerationOf derive target upperBound, downTo last (upperBound.toNat + 1)) ∧
      (∀ m, last < m → m ≤ upperBound → Misses derive target m) ∧
        (Misses derive target last → last = 0) := by
  refine ⟨fun n ↦ ?_, fun e ↦ ?_, ?_⟩
  · rw [numerationOf_eq_ok_iff, findNumeration, searchBelow_eq_some_iff upperBound.toNat_lt,
      stops_upperBound_iff]
    constructor
    · exact fun h ↦ ⟨h.1.1, h.2, h.1.2.2⟩
    · exact fun h ↦ ⟨⟨h.1, not_misses_of_target h.2.1, h.2.2⟩, h.2.1⟩
  · rw [numerationOf_eq_error_iff, findNumeration, searchBelow_eq_error_iff upperBound.toNat_lt,
      searchBelow_eq_none_iff upperBound.toNat_lt]
    simp only [lt_succ_upperBound_iff, stops_upperBound_iff]
    refine or_congr (exists_congr fun n ↦ ?_) Iff.rfl
    constructor
    · exact fun h ↦ ⟨h.1.1, h.2, h.1.2.2⟩
    · exact fun h ↦ ⟨⟨h.1, not_misses_of_error h.2.1, h.2.2⟩, h.2.1⟩
  · rcases @search_ends derive target _ upperBound.toNat_lt [] with
      ⟨hall, hsearch, hrecorded⟩ | ⟨n, hn, hsearch, hrecorded⟩
    · refine ⟨0, UInt32.zero_le, numerationOf_recorded hsearch hrecorded, ?_, fun _ ↦ rfl⟩
      exact fun m _ hm ↦ hall m (lt_succ_upperBound_iff.2 hm)
    · obtain ⟨hle, hmisses, habove⟩ := stops_upperBound_iff.1 hn
      exact ⟨n, hle, numerationOf_recorded hsearch hrecorded, habove, fun h ↦ absurd h hmisses⟩

end UpperBound

end ValidatorClient.Program
