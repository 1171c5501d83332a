import ValidatorClient.Ed25519.Curve
import ValidatorClient.Sha2

namespace ValidatorClient.Ed25519

abbrev Secret := FixedBytes 32

abbrev PublicKey := FixedBytes 32

abbrev Signature := FixedBytes 64

def order : Nat := bit 252 + 27742317777372353535851937790883648493

/-- The first half of the hash of a secret with five of its bits fixed. -/
def scalarOf (secret : Secret) : Nat :=
  let n := Bytes.ofLittleEndian ((Sha2.sha512 secret.toList).toList.take 32)
  n % bit 254 / 8 * 8 + bit 254

def publicKey (secret : Secret) : PublicKey := (Point.base.scale (scalarOf secret)).toBytes

def hashScalar (bytes : Bytes) : Nat := Bytes.ofLittleEndian (Sha2.sha512 bytes).toList % order

def challenge (r : FixedBytes 32) (key : PublicKey) (message : Bytes) : Nat :=
  hashScalar (r.toList ++ key.toList ++ message)

def Signature.join (r s : FixedBytes 32) : Signature :=
  ⟨r.toList ++ s.toList, by rw [List.length_append, r.length_eq, s.length_eq]⟩

def Signature.first (signature : Signature) : FixedBytes 32 :=
  ⟨signature.toList.take 32, by rw [List.length_take, signature.length_eq]; rfl⟩

def Signature.second (signature : Signature) : FixedBytes 32 :=
  ⟨signature.toList.drop 32, by rw [List.length_drop, signature.length_eq]⟩

def sign (secret : Secret) (message : Bytes) : Signature :=
  let key := publicKey secret
  let nonce := hashScalar ((Sha2.sha512 secret.toList).toList.drop 32 ++ message)
  let r := (Point.base.scale nonce).toBytes
  let s := (nonce + challenge r key message * scalarOf secret) % order
  Signature.join r ⟨Bytes.littleEndian 32 s, Bytes.length_littleEndian 32 s⟩

/-- Refuses a second half that is not reduced, and keys and first halves of small order. The first
half counts by its bytes: a point has one form only. -/
def verify (key : PublicKey) (message : Bytes) (signature : Signature) : Bool :=
  let s := Bytes.ofLittleEndian signature.second.toList
  match Point.ofBytes? key, Point.ofBytes? signature.first with
  | some a, some r =>
    s < order && !a.hasSmallOrder && !r.hasSmallOrder &&
      ((Point.base.scale s).add (a.scale (challenge signature.first key message)).neg).toBytes =
        signature.first
  | _, _ => false

end ValidatorClient.Ed25519
