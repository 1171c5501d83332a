import ValidatorClient.Ledger.Message
import ValidatorClient.Ed25519.Signature

namespace ValidatorClient.Ledger

abbrev Signature := Ed25519.Signature

/-- An address that was derived is no key, so nothing verifies for it. -/
def Address.verifies (a : Address) (message : Bytes) (signature : Signature) : Bool :=
  Ed25519.verify a.bytes message signature

namespace Wire

def serialize (signatures : List Signature) (message : Bytes) : Except Error Bytes :=
  match CompactCount.ofPart .signatures signatures.length with
  | .ok count => .ok (count ++ signatures.flatMap (·.toList) ++ message)
  | .error fault => .error (.format fault)

def takeSignatures : Nat → Bytes → Option (List Signature × Bytes)
  | 0, bytes => some ([], bytes)
  | n + 1, bytes => do
    let signature ← FixedBytes.ofList? 64 (bytes.take 64)
    let (signatures, message) ← takeSignatures n (bytes.drop 64)
    return (signature :: signatures, message)

def split (raw : Bytes) : Except Error (List Signature × Bytes) :=
  match CompactCount.decode raw with
  | .error fault => .error (.format fault)
  | .ok (count, consumed) =>
    match takeSignatures count.toNat (raw.drop consumed) with
    | some parts => .ok parts
    | none => .error (.format .signaturesCutOff)

end Wire

end ValidatorClient.Ledger
