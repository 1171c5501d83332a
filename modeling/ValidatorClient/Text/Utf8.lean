import ValidatorClient.Bytes

namespace ValidatorClient.Text.Utf8

def encodeChar (c : Char) : Bytes :=
  let n := c.toNat
  if n < 0x80 then [UInt8.ofNat n]
  else if n < 0x800 then [UInt8.ofNat (0xC0 + n / 64), UInt8.ofNat (0x80 + n % 64)]
  else if n < 0x10000 then
    [UInt8.ofNat (0xE0 + n / 4096), UInt8.ofNat (0x80 + n / 64 % 64), UInt8.ofNat (0x80 + n % 64)]
  else
    [UInt8.ofNat (0xF0 + n / 262144), UInt8.ofNat (0x80 + n / 4096 % 64),
      UInt8.ofNat (0x80 + n / 64 % 64), UInt8.ofNat (0x80 + n % 64)]

def encodeChars (cs : List Char) : Bytes := cs.flatMap encodeChar

def encode (s : String) : Bytes := encodeChars s.toList

/-- Where decoding stopped. The length is that of the longest beginning of a character found there;
without one the input ended inside a character. -/
structure Fault where
  position : Nat
  length : Option Nat
  deriving DecidableEq, Repr

def Fault.message (fault : Fault) : String :=
  match fault.length with
  | some n => s!"invalid utf-8 sequence of {n} bytes from index {fault.position}"
  | none => s!"incomplete utf-8 byte sequence from index {fault.position}"

/-- A character of several bytes whose first `seen` bytes have been read. The next byte lies between
`low` and `high`, and `due` more follow it. -/
structure Begun where
  seen : Nat
  code : Nat
  low : UInt8
  high : UInt8
  due : Nat

/-- What a byte that leads a character of several bytes announces. The bounds on the second byte
leave out overlong forms, surrogates and numbers past the last code point. -/
def lead? (b : UInt8) : Option Begun :=
  if 0xC2 ≤ b ∧ b ≤ 0xDF then some ⟨1, b.toNat - 0xC0, 0x80, 0xBF, 0⟩
  else if b = 0xE0 then some ⟨1, 0, 0xA0, 0xBF, 1⟩
  else if b = 0xED then some ⟨1, 13, 0x80, 0x9F, 1⟩
  else if 0xE1 ≤ b ∧ b ≤ 0xEF then some ⟨1, b.toNat - 0xE0, 0x80, 0xBF, 1⟩
  else if b = 0xF0 then some ⟨1, 0, 0x90, 0xBF, 2⟩
  else if 0xF1 ≤ b ∧ b ≤ 0xF3 then some ⟨1, b.toNat - 0xF0, 0x80, 0xBF, 2⟩
  else if b = 0xF4 then some ⟨1, 4, 0x80, 0x8F, 2⟩
  else none

/-- Reads from a position that begins a character, or from inside the character begun there. -/
def decodeFrom (start : Nat) : Option Begun → Bytes → Except Fault (List Char)
  | none, [] => .ok []
  | some _, [] => .error ⟨start, none⟩
  | none, b :: bs =>
    if b < 0x80 then do
      let cs ← decodeFrom (start + 1) none bs
      return Char.ofNat b.toNat :: cs
    else
      match lead? b with
      | none => .error ⟨start, some 1⟩
      | some begun => decodeFrom start (some begun) bs
  | some begun, b :: bs =>
    if begun.low ≤ b ∧ b ≤ begun.high then
      let code := 64 * begun.code + (b.toNat - 0x80)
      match begun.due with
      | 0 => do
        let cs ← decodeFrom (start + begun.seen + 1) none bs
        return Char.ofNat code :: cs
      | due + 1 => decodeFrom start (some ⟨begun.seen + 1, code, 0x80, 0xBF, due⟩) bs
    else .error ⟨start, some begun.seen⟩

def decode (bytes : Bytes) : Except Fault String :=
  (decodeFrom 0 none bytes).map String.ofList

end ValidatorClient.Text.Utf8
