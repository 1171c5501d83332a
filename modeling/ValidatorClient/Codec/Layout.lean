import ValidatorClient.Codec.Reader
import ValidatorClient.Codec.Writer
import ValidatorClient.Codec.OrderedMap

namespace ValidatorClient.Codec

open ValidatorClient.Text

structure Bijection (α β : Type) where
  forth : α → β
  back : β → α
  back_forth : ∀ a, back (forth a) = a
  forth_back : ∀ b, forth (back b) = b

/-- How the values of a type are written. A union has one variant per discriminant byte, so it has
at least one and at most 256. -/
inductive Layout : Type → Type 1 where
  | u8 : Layout UInt8
  | u16 : Layout UInt16
  | u32 : Layout UInt32
  | u64 : Layout UInt64
  | bool : Layout Bool
  | bytes (n : Nat) : Layout (FixedBytes n)
  | string : Layout String
  | option {α : Type} (value : Layout α) : Layout (Option α)
  | vec {α : Type} (item : Layout α) : Layout (List α)
  | map {κ ν : Type} [DecidableEq κ] (key : Layout κ) (value : Layout ν) : Layout (OrderedMap κ ν)
  | pair {α β : Type} (first : Layout α) (second : Layout β) : Layout (α × β)
  | union (name : String) {n : Nat} (n_lt : n < 256) {Payload : Fin (n + 1) → Type}
      (payload : (i : Fin (n + 1)) → Layout (Payload i)) : Layout (Σ i, Payload i)
  | via {α β : Type} (e : Bijection α β) (layout : Layout α) : Layout β

def encodeCount (n : Nat) : Except Error Bytes := (Write.count n).output

def fillMap {κ ν : Type} [DecidableEq κ] (key : Read κ) (value : Read ν) :
    (count index : Nat) → OrderedMap κ ν → Read (OrderedMap κ ν)
  | 0, _, m => return m
  | count + 1, index, m => do
    let k ← key
    let v ← value
    match m.insert k v with
    | (some _, _) => Read.fail (.duplicateKey index)
    | (none, m) => fillMap key value count (index + 1) m

namespace Layout

/-- The fewest bytes that a value takes. -/
def minLength : {α : Type} → Layout α → Nat
  | _, u8 => 1
  | _, u16 => 2
  | _, u32 => 4
  | _, u64 => 8
  | _, bool => 1
  | _, bytes n => n
  | _, string => 4
  | _, option _ => 1
  | _, vec _ => 4
  | _, map _ _ => 4
  | _, pair first second => first.minLength + second.minLength
  | _, union _ _ payload => 1 + ((List.ofFn fun i ↦ (payload i).minLength).min?.getD 0)
  | _, via _ layout => layout.minLength

/-- Writes the parts of a value one after the other. A key that occurs twice is found before
anything of its map is written. -/
def write : {α : Type} → Layout α → α → Write
  | _, u8, n => Write.push [n]
  | _, u16, n => Write.push (Bytes.littleEndian 2 n.toNat)
  | _, u32, n => Write.push (Bytes.littleEndian 4 n.toNat)
  | _, u64, n => Write.push (Bytes.littleEndian 8 n.toNat)
  | _, bool, b => Write.push [if b then 1 else 0]
  | _, bytes _, b => Write.push b.toList
  | _, string, s => do
    let text := Utf8.encode s
    Write.count text.length
    Write.push text
  | _, option _, none => Write.push [0]
  | _, option value, some a => do
    Write.push [1]
    value.write a
  | _, vec item, as => do
    Write.count as.length
    as.forM item.write
  | _, map key value, m =>
    match m.firstDuplicate with
    | some index => Write.fail (.duplicateKey index)
    | none => do
      Write.count m.length
      m.entries.forM fun (k, v) ↦ do
        key.write k
        value.write v
  | _, pair first second, (a, b) => do
    first.write a
    second.write b
  | _, union _ _ payload, ⟨i, a⟩ => do
    Write.push [UInt8.ofNat i.val]
    (payload i).write a
  | _, via e layout, b => layout.write (e.back b)

/-- A count is checked against the bytes left before any element is read. -/
def decode : {α : Type} → Layout α → Read α
  | _, u8 => Read.byte
  | _, u16 => UInt16.ofNat <$> Read.word 2
  | _, u32 => UInt32.ofNat <$> Read.word 4
  | _, u64 => UInt64.ofNat <$> Read.word 8
  | _, bool => do
    let b ← Read.byte
    if b = 0 then return false else if b = 1 then return true else Read.fail (.boolByte b)
  | _, bytes n => Read.fixed n
  | _, string => do
    match Utf8.decode (← Read.take (← Read.count)) with
    | .ok s => return s
    | .error fault => Read.fail (.notUtf8 fault)
  | _, option value => do
    let b ← Read.byte
    if b = 0 then return none
    else if b = 1 then return some (← value.decode)
    else Read.fail (.presenceByte b)
  | _, vec item => do
    let count ← Read.count
    Read.ensure (count * item.minLength)
    Read.times item.decode count
  | _, map key value => do
    let count ← Read.count
    Read.ensure (count * (key.minLength + value.minLength))
    fillMap key.decode value.decode count 0 .empty
  | _, pair first second => do return (← first.decode, ← second.decode)
  | _, union name _ payload => do
    let i ← Read.discriminant name _
    return ⟨i, ← (payload i).decode⟩
  | _, via e layout => e.forth <$> layout.decode

variable {α : Type}

def encode (layout : Layout α) (a : α) : Except Error Bytes := (layout.write a).output

/-- The value at the front of the bytes, and how many of them it takes. -/
def decodeFront (layout : Layout α) (bytes : Bytes) : Except Error (α × Nat) :=
  match layout.decode (Reader.start bytes) with
  | (.ok a, r) => .ok (a, r.position)
  | (.error e, _) => .error e

def decodeAll (layout : Layout α) (bytes : Bytes) : Except Error α := do
  let (a, consumed) ← layout.decodeFront bytes
  if consumed = bytes.length then return a
  else throw (.trailingBytes (bytes.length - consumed))

end Layout

end ValidatorClient.Codec
