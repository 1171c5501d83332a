import ValidatorClient.Ledger.DerivedAddress
import ValidatorClient.Ledger.Wire
import ValidatorClient.Proofs.Except

namespace ValidatorClient.Ledger

theorem Address.verifies_eq_false {a : Address} (h : a.isOnCurve = false) (message : Bytes)
    (signature : Signature) : a.verifies message signature = false := by
  have hkey : Ed25519.Point.ofBytes? a.bytes = none :=
    Option.isNone_iff_eq_none.1 (Option.isSome_eq_false_iff.1 h)
  unfold verifies Ed25519.verify
  rw [hkey]

namespace DerivedAddress

variable {seeds seeds' : List Bytes} {owner owner' address : Address} {bump : UInt8}

theorem preimage_inj :
    preimage seeds owner = preimage seeds' owner' ↔
      seeds.flatten = seeds'.flatten ∧ owner = owner' := by
  constructor
  · intro h
    have hlength : owner.toList.length = owner'.toList.length := by
      rw [owner.length_toList, owner'.length_toList]
    obtain ⟨hseeds, howner⟩ := List.append_inj' (List.append_cancel_right h) hlength
    exact ⟨hseeds, Address.toList_injective howner⟩
  · intro h
    rw [preimage, h.1, h.2, preimage]

theorem offCurve?_eq_some_iff :
    offCurve? seeds owner = some address ↔
      address.bytes = Sha2.sha256 (preimage seeds owner) ∧ address.isOnCurve = false := by
  obtain ⟨bytes⟩ := address
  unfold offCurve?
  dsimp only
  cases h : Address.isOnCurve ⟨Sha2.sha256 (preimage seeds owner)⟩ with
  | true =>
    constructor
    · intro h'
      cases h'
    · intro h'
      rw [h'.1, h] at h'
      cases h'.2
  | false =>
    constructor
    · intro h'
      cases h'
      exact ⟨rfl, h⟩
    · intro h'
      rw [h'.1]
      rfl

theorem offCurve?_congr (h : seeds.flatten = seeds'.flatten) :
    offCurve? seeds owner = offCurve? seeds' owner := by
  rw [offCurve?, preimage, h]
  rfl

structure Fits (most : Nat) (seeds : List Bytes) : Prop where
  count : seeds.length ≤ most
  lengths : ∀ seed ∈ seeds, seed.length ≤ maxSeedLength

theorem not_fits_iff {most : Nat} :
    ¬ Fits most seeds ↔ most < seeds.length ∨ ∃ seed ∈ seeds, maxSeedLength < seed.length := by
  constructor
  · intro h
    by_contra hall
    rw [not_or, not_exists] at hall
    refine h ⟨Nat.not_lt.1 hall.1, fun seed hseed ↦ ?_⟩
    exact Nat.not_lt.1 fun hlt ↦ hall.2 seed ⟨hseed, hlt⟩
  · intro h hfits
    rcases h with h | ⟨seed, hseed, hlt⟩
    · exact absurd hfits.count (Nat.not_le.2 h)
    · exact absurd (hfits.lengths seed hseed) (Nat.not_le.2 hlt)

theorem fits_append_bump_iff : Fits maxSeeds (seeds ++ [[bump]]) ↔ Fits 15 seeds := by
  constructor
  · intro h
    have hcount := h.count
    rw [List.length_append, List.length_singleton] at hcount
    exact ⟨Nat.le_of_succ_le_succ hcount,
      fun seed hseed ↦ h.lengths seed (List.mem_append_left _ hseed)⟩
  · intro h
    constructor
    · rw [List.length_append, List.length_singleton]
      exact Nat.succ_le_succ h.count
    · simp only [List.mem_append, List.mem_singleton]
      rintro seed (hseed | rfl)
      · exact h.lengths seed hseed
      · simp [maxSeedLength]

theorem checkLengths_eq_ok_iff {index : Nat} :
    checkLengths index seeds = .ok () ↔ ∀ seed ∈ seeds, seed.length ≤ maxSeedLength := by
  induction seeds generalizing index with
  | nil => simp [checkLengths]
  | cons seed seeds ih =>
    rw [List.forall_mem_cons, checkLengths]
    by_cases hseed : maxSeedLength < seed.length
    · simp [hseed, Nat.not_le.2 hseed]
    · simp [hseed, Nat.not_lt.1 hseed, ih]

theorem exists_tooLong_of_checkLengths {index : Nat} {e : Error}
    (h : checkLengths index seeds = .error e) :
    ∃ i length, e = .invalidSeeds (.tooLong i length) := by
  induction seeds generalizing index with
  | nil => cases h
  | cons seed seeds ih =>
    rw [checkLengths] at h
    by_cases hseed : maxSeedLength < seed.length
    · rw [if_pos hseed] at h
      cases h
      exact ⟨_, _, rfl⟩
    · rw [if_neg hseed] at h
      exact ih h

/-- Seeds that do not fit are refused for what they are, not for what comes of them. -/
theorem create_of_not_fits (owner : Address) (h : ¬ Fits maxSeeds seeds) :
    ∃ fault, fault ≠ .onCurve ∧ create seeds owner = .error (.invalidSeeds fault) := by
  unfold create
  by_cases hcount : maxSeeds < seeds.length
  · exact ⟨.tooMany seeds.length, SeedFault.noConfusion, if_pos hcount⟩
  · rw [if_neg hcount]
    cases hcheck : checkLengths 0 seeds with
    | ok _ => exact absurd ⟨Nat.not_lt.1 hcount, checkLengths_eq_ok_iff.1 hcheck⟩ h
    | error e =>
      obtain ⟨i, length, rfl⟩ := exists_tooLong_of_checkLengths hcheck
      exact ⟨.tooLong i length, SeedFault.noConfusion, rfl⟩

theorem create_of_fits (h : Fits maxSeeds seeds) :
    create seeds owner = (offCurve? seeds owner).elim (.error (.invalidSeeds .onCurve)) .ok := by
  unfold create
  rw [if_neg (Nat.not_lt.2 h.count), checkLengths_eq_ok_iff.2 h.lengths]
  cases offCurve? seeds owner <;> rfl

theorem create_eq_ok_iff :
    create seeds owner = .ok address ↔
      Fits maxSeeds seeds ∧ offCurve? seeds owner = some address := by
  by_cases h : Fits maxSeeds seeds
  · rw [create_of_fits h]
    cases offCurve? seeds owner <;> simp [h]
  · obtain ⟨fault, -, hcreate⟩ := create_of_not_fits owner h
    simp [hcreate, h]

theorem create_eq_onCurve_iff : create seeds owner = .error (.invalidSeeds .onCurve) ↔
    Fits maxSeeds seeds ∧ offCurve? seeds owner = none := by
  by_cases h : Fits maxSeeds seeds
  · rw [create_of_fits h]
    cases offCurve? seeds owner <;> simp [h]
  · obtain ⟨fault, hne, hcreate⟩ := create_of_not_fits owner h
    simp [hcreate, h, hne]

theorem find_of_not_fits (owner : Address) (h : ¬ Fits 15 seeds) :
    ∃ fault, find seeds owner = .error (.invalidSeeds fault) := by
  unfold find
  by_cases hcount : maxSeeds ≤ seeds.length
  · exact ⟨.noRoomForBump seeds.length, if_pos hcount⟩
  · rw [if_neg hcount]
    cases hcheck : checkLengths 0 seeds with
    | ok _ =>
      exact absurd ⟨Nat.le_of_lt_succ (Nat.not_le.1 hcount), checkLengths_eq_ok_iff.1 hcheck⟩ h
    | error e =>
      obtain ⟨i, length, rfl⟩ := exists_tooLong_of_checkLengths hcheck
      exact ⟨.tooLong i length, rfl⟩

theorem find_of_fits (h : Fits 15 seeds) :
    find seeds owner = (search seeds owner 256).elim (.error .noDerivedAddress) .ok := by
  have hroom : ¬ maxSeeds ≤ seeds.length := Nat.not_le.2 (Nat.lt_succ_of_le h.count)
  unfold find
  rw [if_neg hroom, checkLengths_eq_ok_iff.2 h.lengths]
  cases search seeds owner 256 <;> rfl

theorem eq_noDerivedAddress_of_find {e : Error} (hfits : Fits 15 seeds)
    (h : find seeds owner = .error e) :
    e = .noDerivedAddress := by
  rw [find_of_fits hfits] at h
  cases hsearch : search seeds owner 256 with
  | some found => simp [hsearch] at h
  | none =>
    rw [hsearch] at h
    cases h
    rfl

theorem search_succ_eq_some_iff {n : Nat} : search seeds owner (n + 1) = some (address, bump) ↔
    offCurve? (seeds ++ [[bump]]) owner = some address ∧ bump = UInt8.ofNat n ∨
      offCurve? (seeds ++ [[UInt8.ofNat n]]) owner = none ∧
        search seeds owner n = some (address, bump) := by
  rw [search, Option.orElse_eq_orElse, Option.orElse_eq_or, Option.or_eq_some_iff,
    Option.map_eq_none_iff, Option.map_eq_some_iff]
  refine or_congr ?_ Iff.rfl
  constructor
  · intro h
    obtain ⟨found, hfound, hpair⟩ := h
    cases hpair
    exact ⟨hfound, rfl⟩
  · intro h
    obtain ⟨hfound, rfl⟩ := h
    exact ⟨address, hfound, rfl⟩

theorem search_eq_some_iff {n : Nat} (hn : n ≤ 256) : search seeds owner n = some (address, bump) ↔
    bump.toNat < n ∧ offCurve? (seeds ++ [[bump]]) owner = some address ∧
      ∀ b, bump < b → b.toNat < n → offCurve? (seeds ++ [[b]]) owner = none := by
  induction n with
  | zero => simp [search]
  | succ n ih =>
    have hlast : (UInt8.ofNat n).toNat = n := UInt8.toNat_ofNat_of_lt' hn
    rw [search_succ_eq_some_iff, ih (by omega)]
    constructor
    · intro h
      rcases h with ⟨hfound, rfl⟩ | ⟨hnone, hlt, hfound, habove⟩
      · refine ⟨by omega, hfound, fun b hb hbn ↦ ?_⟩
        rw [UInt8.lt_iff_toNat_lt] at hb
        omega
      · refine ⟨by omega, hfound, fun b hb hbn ↦ ?_⟩
        -- Of the bumps above the one that was found, only `n` is new.
        by_cases hbn' : b.toNat = n
        · have heq : UInt8.ofNat n = b := by rw [← hbn', UInt8.ofNat_toNat]
          rw [← heq]
          exact hnone
        · exact habove b hb (by omega)
    · intro h
      obtain ⟨hlt, hfound, habove⟩ := h
      by_cases hbump : bump.toNat = n
      · left
        exact ⟨hfound, by rw [← hbump, UInt8.ofNat_toNat]⟩
      · right
        refine ⟨habove _ ?_ (by omega), by omega, hfound, fun b hb hbn ↦ habove b hb (by omega)⟩
        rw [UInt8.lt_iff_toNat_lt]
        omega

theorem search_eq_none_iff {n : Nat} (hn : n ≤ 256) : search seeds owner n = none ↔
    ∀ b : UInt8, b.toNat < n → offCurve? (seeds ++ [[b]]) owner = none := by
  induction n with
  | zero => simp [search]
  | succ n ih =>
    have hlast : (UInt8.ofNat n).toNat = n := UInt8.toNat_ofNat_of_lt' hn
    rw [search, Option.orElse_eq_orElse, Option.orElse_eq_or, Option.or_eq_none_iff,
      Option.map_eq_none_iff, ih (by omega)]
    constructor
    · intro h b hb
      by_cases hbn : b.toNat = n
      · have heq : UInt8.ofNat n = b := by rw [← hbn, UInt8.ofNat_toNat]
        rw [← heq]
        exact h.1
      · exact h.2 b (by omega)
    · intro h
      exact ⟨h _ (by omega), fun b hb ↦ h b (by omega)⟩

theorem search_congr (h : seeds.flatten = seeds'.flatten) (n : Nat) :
    search seeds owner n = search seeds' owner n := by
  induction n with
  | zero => rfl
  | succ n ih =>
    have hbump : (seeds ++ [[UInt8.ofNat n]]).flatten = (seeds' ++ [[UInt8.ofNat n]]).flatten := by
      rw [List.flatten_append, List.flatten_append, h]
    rw [search, search, ih, offCurve?_congr hbump]

theorem find_eq_ok_iff : find seeds owner = .ok (address, bump) ↔
    Fits 15 seeds ∧ search seeds owner 256 = some (address, bump) := by
  by_cases h : Fits 15 seeds
  · rw [find_of_fits h]
    cases search seeds owner 256 <;> simp [h]
  · obtain ⟨fault, hfind⟩ := find_of_not_fits owner h
    simp [hfind, h]

theorem find_eq_noDerivedAddress_iff : find seeds owner = .error .noDerivedAddress ↔
    Fits 15 seeds ∧ search seeds owner 256 = none := by
  by_cases h : Fits 15 seeds
  · rw [find_of_fits h]
    cases search seeds owner 256 <;> simp [h]
  · obtain ⟨fault, hfind⟩ := find_of_not_fits owner h
    simp [hfind, h]

theorem exists_find_eq_invalidSeeds_iff :
    (∃ fault, find seeds owner = .error (.invalidSeeds fault)) ↔ ¬ Fits 15 seeds := by
  constructor
  · intro hfind h
    obtain ⟨fault, hfind⟩ := hfind
    rw [find_of_fits h] at hfind
    cases hsearch : search seeds owner 256 <;> simp [hsearch] at hfind
  · exact find_of_not_fits owner

theorem offCurve?_of_find (h : find seeds owner = .ok (address, bump)) :
    offCurve? (seeds ++ [[bump]]) owner = some address :=
  ((search_eq_some_iff (Nat.le_refl 256)).1 (find_eq_ok_iff.1 h).2).2.1

theorem offCurve?_of_create (h : create seeds owner = .ok address) :
    offCurve? seeds owner = some address :=
  (create_eq_ok_iff.1 h).2

theorem find_eq_ok_iff_create : find seeds owner = .ok (address, bump) ↔
    create (seeds ++ [[bump]]) owner = .ok address ∧
      ∀ b, bump < b → create (seeds ++ [[b]]) owner = .error (.invalidSeeds .onCurve) := by
  rw [find_eq_ok_iff, search_eq_some_iff (Nat.le_refl 256)]
  simp only [create_eq_ok_iff, create_eq_onCurve_iff, fits_append_bump_iff]
  constructor
  · intro h
    obtain ⟨hfits, -, hfound, habove⟩ := h
    exact ⟨⟨hfits, hfound⟩, fun b hb ↦ ⟨hfits, habove b hb b.toNat_lt⟩⟩
  · intro h
    obtain ⟨⟨hfits, hfound⟩, habove⟩ := h
    exact ⟨hfits, bump.toNat_lt, hfound, fun b hb _ ↦ (habove b hb).2⟩

theorem find_eq_noDerivedAddress_iff_create : find seeds owner = .error .noDerivedAddress ↔
    ∀ b, create (seeds ++ [[b]]) owner = .error (.invalidSeeds .onCurve) := by
  rw [find_eq_noDerivedAddress_iff, search_eq_none_iff (Nat.le_refl 256)]
  simp only [create_eq_onCurve_iff, fits_append_bump_iff]
  constructor
  · exact fun h b ↦ ⟨h.1, h.2 b b.toNat_lt⟩
  · exact fun h ↦ ⟨(h 0).1, fun b _ ↦ (h b).2⟩

/-- The search for a bump, in terms of the addresses of exactly given seeds. It refuses as many
seeds as leave no room for a bump, and seeds that are too long. What it gives has the greatest bump
for which the hash is no public key, and it fails if there is none. Where one seed ends and the next
one begins is of no importance. -/
theorem find_exact (seeds : List Bytes) (owner : Address) :
    ((∃ fault, find seeds owner = .error (.invalidSeeds fault)) ↔
      16 ≤ seeds.length ∨ ∃ seed ∈ seeds, 32 < seed.length) ∧
    (∀ address bump, find seeds owner = .ok (address, bump) ↔
      create (seeds ++ [[bump]]) owner = .ok address ∧
        ∀ b, bump < b → create (seeds ++ [[b]]) owner = .error (.invalidSeeds .onCurve)) ∧
    (find seeds owner = .error .noDerivedAddress ↔
      ∀ b, create (seeds ++ [[b]]) owner = .error (.invalidSeeds .onCurve)) ∧
    (∀ address bump, find seeds owner = .ok (address, bump) → address.isOnCurve = false) ∧
    (∀ address, create seeds owner = .ok address ↔
      seeds.length ≤ 16 ∧ (∀ seed ∈ seeds, seed.length ≤ 32) ∧
        address.bytes = Sha2.sha256 (seeds.flatten ++ owner.toList ++ marker) ∧
        address.isOnCurve = false) ∧
    ∀ seeds', seeds'.flatten = seeds.flatten →
      (Fits 15 seeds → Fits 15 seeds' → find seeds' owner = find seeds owner) ∧
      (Fits 16 seeds → Fits 16 seeds' → create seeds' owner = create seeds owner) := by
  refine ⟨?_, fun _ _ ↦ find_eq_ok_iff_create, find_eq_noDerivedAddress_iff_create, ?_, ?_, ?_⟩
  · exact exists_find_eq_invalidSeeds_iff.trans not_fits_iff
  · intro address bump h
    exact (offCurve?_eq_some_iff.1 (offCurve?_of_find h)).2
  · intro address
    rw [create_eq_ok_iff, offCurve?_eq_some_iff]
    constructor
    · exact fun h ↦ ⟨h.1.count, h.1.lengths, h.2⟩
    · exact fun h ↦ ⟨⟨h.1, h.2.1⟩, h.2.2⟩
  · intro seeds' hflatten
    constructor
    · intro h h'
      rw [find_of_fits h, find_of_fits h', search_congr hflatten]
    · intro h h'
      rw [create_of_fits h, create_of_fits h', offCurve?_congr hflatten]

theorem find_exact_divided :
    let owner : Address := ⟨.replicate 32 7⟩
    let a : Address := .ofNat 0x6dc2099daf1b5b5535b13dcac97cef22cbe168c6c29932d4dc929d0dab25dc4d
    find [[1, 2], [1]] owner = .ok (a, 253) ∧ find [[1], [2, 1]] owner = .ok (a, 253) ∧
      create [[1, 2], [1], [253]] owner = .ok a ∧ a.isOnCurve = false ∧
      create [[1, 2], [1], [254]] owner = .error (.invalidSeeds .onCurve) := by
  intro owner a
  have h : find [[1, 2], [1]] owner = .ok (a, 253) := by decide +kernel
  obtain ⟨-, hok, -, hcurve, -, hjoined⟩ := find_exact [[1, 2], [1]] owner
  obtain ⟨hcreate, habove⟩ := (hok a 253).1 h
  have hdivided := (hjoined [[1], [2, 1]] rfl).1 ⟨by decide, by decide⟩ ⟨by decide, by decide⟩
  exact ⟨h, hdivided.trans h, hcreate, hcurve a 253 h, habove 254 (by decide)⟩

end DerivedAddress

end ValidatorClient.Ledger
