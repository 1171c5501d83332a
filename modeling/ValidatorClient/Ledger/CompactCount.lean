import ValidatorClient.Ledger.Error

namespace ValidatorClient.Ledger.CompactCount

def encode (n : UInt16) : Bytes :=
  let n := n.toNat
  if n < 0x80 then [UInt8.ofNat n]
  else if n < 0x4000 then [UInt8.ofNat (n % 128 + 128), UInt8.ofNat (n / 128)]
  else [UInt8.ofNat (n % 128 + 128), UInt8.ofNat (n / 128 % 128 + 128), UInt8.ofNat (n / 16384)]

/-- Reads up to `k` more bytes of a count whose bits so far are `low`, worth less than `place`. -/
def decodeFrom (place low consumed : Nat) : Nat → Bytes → Except FormatFault (UInt16 × Nat)
  | 0, _ => .error .countTooLong
  | _ + 1, [] => .error .countCutOff
  | k + 1, b :: bytes =>
    let n := low + b.toNat % 128 * place
    if 128 ≤ b.toNat then decodeFrom (128 * place) n (consumed + 1) k bytes
    else if n < 0x10000 then .ok (UInt16.ofNat n, consumed + 1)
    else .error .countOverflow

def decode (bytes : Bytes) : Except FormatFault (UInt16 × Nat) := decodeFrom 1 0 0 3 bytes

def ofPart (part : Part) (n : Nat) : Except FormatFault Bytes :=
  if n < 0x10000 then .ok (encode (UInt16.ofNat n)) else .error (.tooMany part n)

end ValidatorClient.Ledger.CompactCount
