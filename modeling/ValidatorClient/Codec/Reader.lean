import ValidatorClient.Codec.Error

namespace ValidatorClient.Codec

/-- A place in a sequence of bytes: how many have been read, and the unread rest. -/
structure Reader where
  position : Nat
  rest : Bytes
  deriving DecidableEq

/-- A read moves the reader also when it fails: it then stands where it failed. -/
abbrev Read (α : Type) := ExceptT Error (StateM Reader) α

namespace Reader

def start (bytes : Bytes) : Reader := ⟨0, bytes⟩

def remaining (r : Reader) : Nat := r.rest.length

def isEmpty (r : Reader) : Bool := r.rest.isEmpty

end Reader

namespace Read

variable {α : Type}

def fail (e : Error) : Read α := fun r ↦ (.error e, r)

def ensure (n : Nat) : Read Unit := fun r ↦
  if r.rest.hasAtLeast n then (.ok (), r) else (.error (.truncated n r.remaining), r)

def take (n : Nat) : Read Bytes := fun r ↦
  if r.rest.hasAtLeast n then (.ok (r.rest.take n), ⟨r.position + n, r.rest.drop n⟩)
  else (.error (.truncated n r.remaining), r)

def byte : Read UInt8 := fun r ↦
  match r.rest with
  | [] => (.error (.truncated 1 0), r)
  | b :: rest => (.ok b, ⟨r.position + 1, rest⟩)

def fixed (n : Nat) : Read (FixedBytes n) := fun r ↦
  if h : r.rest.hasAtLeast n then
    (.ok ⟨r.rest.take n, by
      rw [List.length_take]; exact Nat.min_eq_left ((Bytes.hasAtLeast_iff n r.rest).1 h)⟩,
      ⟨r.position + n, r.rest.drop n⟩)
  else (.error (.truncated n r.remaining), r)

def word (k : Nat) : Read Nat := do
  return Bytes.ofLittleEndian (← take k)

def count : Read Nat := word 4

/-- The byte that opens a union of `variants` variants. It has been read also when it is refused. -/
def discriminant (typeName : String) (variants : Nat) : Read (Fin variants) := do
  let b ← byte
  if h : b.toNat < variants then return ⟨b.toNat, h⟩
  else fail (.unknownVariant typeName b)

def times (read : Read α) : Nat → Read (List α)
  | 0 => return []
  | n + 1 => do
    let a ← read
    let as ← times read n
    return a :: as

end Read

end ValidatorClient.Codec
