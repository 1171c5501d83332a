import ValidatorClient.Bytes

namespace ValidatorClient.Ed25519

def prime : Nat := 0x7fffffffffffffffffffffffffffffffffffffffffffffffffffffffffffffed

instance : @NeZero Nat Zero.ofOfNat0 prime := ⟨Nat.succ_ne_zero (prime - 1)⟩

abbrev Field := Fin prime

def bit (k : Nat) : Nat := 1 <<< k

def binary : Nat → Nat → List Bool
  | 0, _ => []
  | k + 1, n => n.testBit k :: binary k n

/-- Combines `n` copies of `x`, where `n` is given in binary. -/
def combine {α : Type} (op : α → α → α) (unit x : α) (digits : List Bool) : α :=
  digits.foldl (fun a digit ↦ if digit then op (op a a) x else op a a) unit

namespace Field

def pow (x : Field) (n : Nat) : Field := combine (· * ·) 1 x (binary 255 n)

def inverse (x : Field) : Field := pow x (prime - 2)

def rootOfMinusOne : Field :=
  0x2b8324804fc1df0b2b4d00993dfbd7a72f431806ad2fe478c4ee1b274a0ea0b0

/-- The even square root of `u / v`, if there is one. -/
def sqrtRatio? (u v : Field) : Option Field :=
  let r := u * v * v * v * pow (u * pow v 7) ((prime - 5) / 8)
  let square := v * r * r
  let even := fun x : Field ↦ if x.val % 2 = 0 then x else -x
  if square = u then some (even r)
  else if square = -u then some (even (r * rootOfMinusOne))
  else none

end Field

/-- A point of -x² + y² = 1 + d x² y² as (x / z, y / z), with `t` = x y / z. -/
structure Point where
  x : Field
  y : Field
  z : Field
  t : Field

namespace Point

def d : Field := 0x52036cee2b6ffe738cc740797779e89800700a4d4141d8ab75eb4dca135978a3

def ofAffine (x y : Field) : Point := ⟨x, y, 1, x * y⟩

def zero : Point := ofAffine 0 1

def base : Point :=
  ofAffine 0x216936d3cd6e53fec0a4e231fdd6dc5c692cc7609525a7b2c9562d608f25d51a
    0x6666666666666666666666666666666666666666666666666666666666666658

def add (p q : Point) : Point :=
  let a := (p.y - p.x) * (q.y - q.x)
  let b := (p.y + p.x) * (q.y + q.x)
  let c := p.t * (2 * d) * q.t
  let f := 2 * p.z * q.z
  ⟨(b - a) * (f - c), (f + c) * (b + a), (f - c) * (f + c), (b - a) * (b + a)⟩

def neg (p : Point) : Point := ⟨-p.x, p.y, p.z, -p.t⟩

def scale (n : Nat) (p : Point) : Point := combine add zero p (binary 256 n)

def same (p q : Point) : Bool := p.x * q.z = q.x * p.z && p.y * q.z = q.y * p.z

def hasSmallOrder (p : Point) : Bool := (scale 8 p).same zero

/-- The point with y in the low 255 bits, taken modulo `prime`, and x odd iff the top bit is set.
For x = 0 the top bit says nothing. -/
def ofBytes? (bytes : FixedBytes 32) : Option Point :=
  let n := Bytes.ofLittleEndian bytes.toList
  let y : Field := Fin.ofNat prime (n % bit 255)
  (Field.sqrtRatio? (y * y - 1) (d * y * y + 1)).map fun x ↦
    ofAffine (if n.testBit 255 then -x else x) y

def toBytes (p : Point) : FixedBytes 32 :=
  let inverse := Field.inverse p.z
  let x := p.x * inverse
  let y := p.y * inverse
  ⟨Bytes.littleEndian 32 (y.val + x.val % 2 * bit 255), Bytes.length_littleEndian 32 _⟩

end Point

end ValidatorClient.Ed25519
