import ValidatorClient.Proofs.Program.Location
import ValidatorClient.Proofs.Program.Numeration

namespace ValidatorClient

open Ledger

namespace Program

theorem SingleAccount.length_seed_le (account : SingleAccount) :
    account.seed.length ≤ DerivedAddress.maxSeedLength := by
  cases account <;> decide

theorem Location.seeds_fit (l : Location) : DerivedAddress.Fits 15 l.seeds := by
  have haddress (a : Address) : a.toList.length ≤ DerivedAddress.maxSeedLength := by
    rw [a.length_toList]
    exact Nat.le_refl 32
  have hnumber (n : UInt32) :
      (Bytes.bigEndian 4 n.toNat).length ≤ DerivedAddress.maxSeedLength := by
    rw [Bytes.length_bigEndian]
    decide
  cases l with
  | single _ account =>
    exact ⟨by simp [seeds], by simpa [seeds] using account.length_seed_le⟩
  | _ =>
    refine ⟨by simp [seeds], ?_⟩
    simp only [seeds, List.forall_mem_cons, haddress, hnumber, true_and]
    decide

theorem Location.eq_noDerivedAddress {l : Location} {e : ClientError} (h : locate l = .error e) :
    e = .ledger .noDerivedAddress := by
  obtain ⟨error, h, he⟩ := Except.mapError_eq_error_iff.1 h
  rw [← he]
  have hfind : DerivedAddress.find l.seeds l.owner = .error error := by
    cases hfind : DerivedAddress.find l.seeds l.owner with
    | ok found =>
      rw [address, hfind] at h
      cases h
    | error e =>
      rw [address, hfind] at h
      cases h
      rfl
  rw [DerivedAddress.eq_noDerivedAddress_of_find l.seeds_fit hfind]

section Resolve

variable {location : UInt32 → Location} {target : Option Address} {numeration : Option UInt32}
  {a : Address} {n upperBound : UInt32}

theorem locate_of_resolve (h : resolve location target numeration upperBound = .ok (a, n)) :
    locate (location n) = .ok a := by
  cases numeration with
  | some m =>
    obtain ⟨address, haddress, h⟩ := Except.bind_eq_ok_iff.1 h
    cases h
    exact haddress
  | none =>
    cases target with
    | none => cases h
    | some target =>
      obtain ⟨m, hm, h⟩ := Except.bind_eq_ok_iff.1 h
      cases h
      exact derive_of_numerationOf hm

theorem resolve_numeration (h : locate (location n) = .ok a) :
    resolve location target (some n) upperBound = .ok (a, n) := by
  rw [resolve, h]
  rfl

/-- By its address an account is found like by its number, if no greater number up to the bound has
that address too. Only a number that has no address ends the search before. -/
theorem resolve_address (hn : locate (location n) = .ok a) (hle : n ≤ upperBound)
    (hgreatest : ∀ m, n < m → m ≤ upperBound → locate (location m) ≠ .ok a) :
    resolve location (some a) none upperBound = .ok (a, n) ∨
      resolve location (some a) none upperBound = .error (.ledger .noDerivedAddress) ∧
        ∃ m, n < m ∧ m ≤ upperBound ∧ locate (location m) = .error (.ledger .noDerivedAddress) := by
  rcases @numerationOf_of_greatest (fun n ↦ locate (location n)) _ _ _ hn hle hgreatest with
    h | ⟨m, e, hm, hmk, hderive, h⟩
  · left
    rw [resolve, h]
    rfl
  · obtain rfl := Location.eq_noDerivedAddress hderive
    refine .inr ⟨?_, m, hm, hmk, hderive⟩
    rw [resolve, h]
    rfl

end Resolve

end Program

end ValidatorClient
