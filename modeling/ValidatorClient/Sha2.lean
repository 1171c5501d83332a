import ValidatorClient.Bytes

namespace ValidatorClient.Sha2

structure State (w : Nat) where
  a : BitVec w
  b : BitVec w
  c : BitVec w
  d : BitVec w
  e : BitVec w
  f : BitVec w
  g : BitVec w
  h : BitVec w

/-- One of the hash functions: its words have `w` bits. Of the three distances of `sumLow` and
`sumHigh` all are rotations, of those of `nextLow` and `nextHigh` the last is a shift. -/
structure Variant (w : Nat) where
  initial : State w
  constants : List (BitVec w)
  sumLow : Nat × Nat × Nat
  sumHigh : Nat × Nat × Nat
  nextLow : Nat × Nat × Nat
  nextHigh : Nat × Nat × Nat

variable {w : Nat}

def State.zipWith (op : BitVec w → BitVec w → BitVec w) (s t : State w) : State w :=
  ⟨op s.a t.a, op s.b t.b, op s.c t.c, op s.d t.d, op s.e t.e, op s.f t.f, op s.g t.g, op s.h t.h⟩

def rotations (r : Nat × Nat × Nat) (x : BitVec w) : BitVec w :=
  x.rotateRight r.1 ^^^ x.rotateRight r.2.1 ^^^ x.rotateRight r.2.2

def rotationsAndShift (r : Nat × Nat × Nat) (x : BitVec w) : BitVec w :=
  x.rotateRight r.1 ^^^ x.rotateRight r.2.1 ^^^ x >>> r.2.2

def round (v : Variant w) (s : State w) (constant word : BitVec w) : State w :=
  let choice := (s.e &&& s.f) ^^^ (~~~s.e &&& s.g)
  let majority := (s.a &&& s.b) ^^^ (s.a &&& s.c) ^^^ (s.b &&& s.c)
  let t := s.h + rotations v.sumHigh s.e + choice + constant + word
  ⟨t + rotations v.sumLow s.a + majority, s.a, s.b, s.c, s.d + t, s.e, s.f, s.g⟩

def nextWord (v : Variant w) (window : List (BitVec w)) : BitVec w :=
  rotationsAndShift v.nextHigh (window.getD 14 0) + window.getD 9 0 +
    rotationsAndShift v.nextLow (window.getD 1 0) + window.getD 0 0

/-- One round per constant. The window holds the next sixteen words of the schedule. -/
def rounds (v : Variant w) : List (BitVec w) → List (BitVec w) → State w → State w
  | [], _, s => s
  | constant :: constants, window, s =>
    rounds v constants (window.drop 1 ++ [nextWord v window]) (round v s constant (window.getD 0 0))

def words (w : Nat) : Nat → Bytes → List (BitVec w)
  | 0, _ => []
  | n + 1, bytes =>
    BitVec.ofNat w (Bytes.ofBigEndian (bytes.take (w / 8))) :: words w n (bytes.drop (w / 8))

def compress (v : Variant w) (s : State w) (block : Bytes) : State w :=
  s.zipWith (· + ·) (rounds v v.constants (words w 16 block) s)

def blocks (w : Nat) : Nat → Bytes → List Bytes
  | 0, _ => []
  | n + 1, bytes => bytes.take (2 * w) :: blocks w n (bytes.drop (2 * w))

/-- The message, a one bit, zeros up to a whole number of blocks, and the length in bits. -/
def pad (w : Nat) (message : Bytes) : Bytes :=
  let zeros := (2 * w - (message.length + 1 + w / 4) % (2 * w)) % (2 * w)
  message ++ 0x80 :: List.replicate zeros 0 ++ Bytes.bigEndian (w / 4) (8 * message.length)

def State.bytes (s : State w) : Bytes :=
  [s.a, s.b, s.c, s.d, s.e, s.f, s.g, s.h].flatMap fun x ↦ Bytes.bigEndian (w / 8) x.toNat

theorem State.length_bytes (s : State w) : s.bytes.length = 8 * (w / 8) := by
  simp only [State.bytes, List.flatMap_cons, List.flatMap_nil, List.length_append,
    Bytes.length_bigEndian, List.length_nil]
  omega

def digest (v : Variant w) (message : Bytes) : FixedBytes (8 * (w / 8)) :=
  let padded := pad w message
  let s := (blocks w (padded.length / (2 * w)) padded).foldl (compress v) v.initial
  ⟨s.bytes, s.length_bytes⟩

/-- Fractional parts of the square roots of the first eight primes. -/
def squareRoots : State 64 :=
  ⟨0x6a09e667f3bcc908, 0xbb67ae8584caa73b, 0x3c6ef372fe94f82b, 0xa54ff53a5f1d36f1,
    0x510e527fade682d1, 0x9b05688c2b3e6c1f, 0x1f83d9abfb41bd6b, 0x5be0cd19137e2179⟩

/-- Fractional parts of the cube roots of the first eighty primes. -/
def cubeRoots : List (BitVec 64) :=
  [0x428a2f98d728ae22, 0x7137449123ef65cd, 0xb5c0fbcfec4d3b2f, 0xe9b5dba58189dbbc,
    0x3956c25bf348b538, 0x59f111f1b605d019, 0x923f82a4af194f9b, 0xab1c5ed5da6d8118,
    0xd807aa98a3030242, 0x12835b0145706fbe, 0x243185be4ee4b28c, 0x550c7dc3d5ffb4e2,
    0x72be5d74f27b896f, 0x80deb1fe3b1696b1, 0x9bdc06a725c71235, 0xc19bf174cf692694,
    0xe49b69c19ef14ad2, 0xefbe4786384f25e3, 0x0fc19dc68b8cd5b5, 0x240ca1cc77ac9c65,
    0x2de92c6f592b0275, 0x4a7484aa6ea6e483, 0x5cb0a9dcbd41fbd4, 0x76f988da831153b5,
    0x983e5152ee66dfab, 0xa831c66d2db43210, 0xb00327c898fb213f, 0xbf597fc7beef0ee4,
    0xc6e00bf33da88fc2, 0xd5a79147930aa725, 0x06ca6351e003826f, 0x142929670a0e6e70,
    0x27b70a8546d22ffc, 0x2e1b21385c26c926, 0x4d2c6dfc5ac42aed, 0x53380d139d95b3df,
    0x650a73548baf63de, 0x766a0abb3c77b2a8, 0x81c2c92e47edaee6, 0x92722c851482353b,
    0xa2bfe8a14cf10364, 0xa81a664bbc423001, 0xc24b8b70d0f89791, 0xc76c51a30654be30,
    0xd192e819d6ef5218, 0xd69906245565a910, 0xf40e35855771202a, 0x106aa07032bbd1b8,
    0x19a4c116b8d2d0c8, 0x1e376c085141ab53, 0x2748774cdf8eeb99, 0x34b0bcb5e19b48a8,
    0x391c0cb3c5c95a63, 0x4ed8aa4ae3418acb, 0x5b9cca4f7763e373, 0x682e6ff3d6b2b8a3,
    0x748f82ee5defb2fc, 0x78a5636f43172f60, 0x84c87814a1f0ab72, 0x8cc702081a6439ec,
    0x90befffa23631e28, 0xa4506cebde82bde9, 0xbef9a3f7b2c67915, 0xc67178f2e372532b,
    0xca273eceea26619c, 0xd186b8c721c0c207, 0xeada7dd6cde0eb1e, 0xf57d4f7fee6ed178,
    0x06f067aa72176fba, 0x0a637dc5a2c898a6, 0x113f9804bef90dae, 0x1b710b35131c471b,
    0x28db77f523047d84, 0x32caab7b40c72493, 0x3c9ebe0a15c9bebc, 0x431d67c49c100d4c,
    0x4cc5d4becb3e42b6, 0x597f299cfc657e2a, 0x5fcb6fab3ad6faec, 0x6c44198c4a475817]

def variant512 : Variant 64 where
  initial := squareRoots
  constants := cubeRoots
  sumLow := (28, 34, 39)
  sumHigh := (14, 18, 41)
  nextLow := (1, 8, 7)
  nextHigh := (19, 61, 6)

def shorten (x : BitVec 64) : BitVec 32 := x.extractLsb' 32 32

/-- The constants are those of the longer variant, cut to 32 bits, and for 64 rounds. -/
def variant256 : Variant 32 where
  initial :=
    ⟨shorten squareRoots.a, shorten squareRoots.b, shorten squareRoots.c, shorten squareRoots.d,
      shorten squareRoots.e, shorten squareRoots.f, shorten squareRoots.g, shorten squareRoots.h⟩
  constants := (cubeRoots.take 64).map shorten
  sumLow := (2, 13, 22)
  sumHigh := (6, 11, 25)
  nextLow := (7, 18, 3)
  nextHigh := (17, 19, 10)

def sha256 (message : Bytes) : FixedBytes 32 := digest variant256 message

def sha512 (message : Bytes) : FixedBytes 64 := digest variant512 message

end ValidatorClient.Sha2
