import ValidatorClient.Ledger.Error
import ValidatorClient.Ed25519.Curve

namespace ValidatorClient.Ledger

open ValidatorClient.Text

/-- The public key of a key pair, or an address that was derived so that it is no public key. -/
structure Address where
  bytes : FixedBytes 32
  deriving DecidableEq, Inhabited

namespace Address

def ofNat (n : Nat) : Address := ⟨⟨Bytes.bigEndian 32 n, Bytes.length_bigEndian 32 n⟩⟩

def ofBytes (bytes : Bytes) : Except Error Address :=
  match FixedBytes.ofList? 32 bytes with
  | some bytes => .ok ⟨bytes⟩
  | none => .error (.invalidAddress (.length bytes.length))

def toList (a : Address) : Bytes := a.bytes.toList

theorem length_toList (a : Address) : a.toList.length = 32 := a.bytes.length_eq

theorem toList_injective {a b : Address} (h : a.toList = b.toList) : a = b := by
  obtain ⟨a⟩ := a
  obtain ⟨b⟩ := b
  exact congrArg Address.mk (FixedBytes.ext h)

def toString (a : Address) : String := Base58.encode a.toList

def parse (s : String) : Except Error Address :=
  match Base58.decode s with
  | .ok bytes => ofBytes bytes
  | .error fault => .error (.invalidAddress (.notBase58 fault))

def display (a : Address) : String := "Address(" ++ a.toString ++ ")"

def isOnCurve (a : Address) : Bool := (Ed25519.Point.ofBytes? a.bytes).isSome

end Address

end ValidatorClient.Ledger
