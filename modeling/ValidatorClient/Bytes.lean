namespace ValidatorClient

abbrev Bytes := List UInt8

/-- Exactly `n` bytes. -/
structure FixedBytes (n : Nat) where
  toList : Bytes
  length_eq : toList.length = n
  deriving DecidableEq

namespace FixedBytes

def ofList? (n : Nat) (bytes : Bytes) : Option (FixedBytes n) :=
  if h : bytes.length = n then some ⟨bytes, h⟩ else none

def replicate (n : Nat) (byte : UInt8) : FixedBytes n :=
  ⟨List.replicate n byte, List.length_replicate⟩

instance {n : Nat} : Inhabited (FixedBytes n) := ⟨replicate n 0⟩

theorem ext {n : Nat} {a b : FixedBytes n} (h : a.toList = b.toList) : a = b := by
  cases a; cases b; cases h; rfl

theorem ofList?_toList {n : Nat} (a : FixedBytes n) : ofList? n a.toList = some a := by
  simp [ofList?, a.length_eq]

theorem ofList?_eq_some_iff {n : Nat} {bytes : Bytes} {a : FixedBytes n} :
    ofList? n bytes = some a ↔ a.toList = bytes := by
  constructor
  · intro h
    by_cases hlength : bytes.length = n
    · rw [ofList?, dif_pos hlength] at h
      cases h
      rfl
    · rw [ofList?, dif_neg hlength] at h
      cases h
  · rintro rfl
    exact a.ofList?_toList

end FixedBytes

namespace Bytes

def littleEndian : Nat → Nat → Bytes
  | 0, _ => []
  | k + 1, n => UInt8.ofNat (n % 256) :: littleEndian k (n / 256)

def ofLittleEndian : Bytes → Nat
  | [] => 0
  | b :: bs => b.toNat + 256 * ofLittleEndian bs

def bigEndian (k n : Nat) : Bytes := (littleEndian k n).reverse

def ofBigEndian (bytes : Bytes) : Nat := bytes.foldl (fun n b ↦ 256 * n + b.toNat) 0

def hasAtLeast : Nat → Bytes → Bool
  | 0, _ => true
  | _ + 1, [] => false
  | n + 1, _ :: bs => hasAtLeast n bs

theorem length_littleEndian (k n : Nat) : (littleEndian k n).length = k := by
  induction k generalizing n with
  | zero => rfl
  | succ k ih => simp [littleEndian, ih]

theorem length_bigEndian (k n : Nat) : (bigEndian k n).length = k := by
  simp [bigEndian, length_littleEndian]

theorem hasAtLeast_iff (n : Nat) (bytes : Bytes) :
    hasAtLeast n bytes = true ↔ n ≤ bytes.length := by
  fun_induction hasAtLeast n bytes with
  | case1 => simp
  | case2 => simp
  | case3 n b bs ih => simp [ih]

end Bytes

end ValidatorClient
