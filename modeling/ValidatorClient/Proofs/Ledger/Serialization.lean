import ValidatorClient.Proofs.Except
import ValidatorClient.Proofs.Ledger.Wire

namespace ValidatorClient.Ledger

open List (Forall₂)

abbrev Parse (α : Type) : Type := StateT Bytes Option α

namespace Parse

variable {α β : Type}

def byte : Parse UInt8 := fun bytes ↦
  match bytes with
  | [] => none
  | b :: rest => some (b, rest)

def fixed (n : Nat) : Parse (FixedBytes n) := fun bytes ↦
  (FixedBytes.ofList? n (bytes.take n)).map (·, bytes.drop n)

def count : Parse Nat := fun bytes ↦
  match CompactCount.decode bytes with
  | .ok (n, consumed) => some (n.toNat, bytes.drop consumed)
  | .error _ => none

def times (item : Parse α) : Nat → Parse (List α)
  | 0 => return []
  | n + 1 => do return (← item) :: (← times item n)

def counted (item : Parse α) : Parse (List α) := do times item (← count)

def address : Parse Address := Address.mk <$> fixed 32

def instruction : Parse CompiledInstruction := do
  let programIndex ← byte
  let accountIndices ← counted byte
  let data ← counted byte
  return { programIndex, accountIndices, data }

def message : Parse Message := do
  let requiredSignatures ← byte
  let readonlySigned ← byte
  let readonlyUnsigned ← byte
  let accountKeys ← counted address
  let blockhash ← fixed 32
  let instructions ← counted instruction
  return {
    requiredSignatures, readonlySigned, readonlyUnsigned, accountKeys, blockhash, instructions }

/-- These bytes are read as this value, whatever follows them. -/
def Recovers (p : Parse α) (bytes : Bytes) (a : α) : Prop :=
  ∀ tail, p (bytes ++ tail) = some (a, tail)

variable {p : Parse α} {bytes bytes' rest : Bytes} {a a' : α} {b : β}

theorem recovers_pure (a : α) : Recovers (pure a) [] a := fun _ ↦ rfl

theorem Recovers.bind {next : α → Parse β} (h : Recovers p bytes a)
    (hnext : Recovers (next a) rest b) :
    Recovers (p >>= next) (bytes ++ rest) b := by
  intro tail
  rw [List.append_assoc]
  change (p (bytes ++ (rest ++ tail))).bind _ = _
  rw [h]
  exact hnext tail

theorem Recovers.map (h : Recovers p bytes a) (f : α → β) : Recovers (f <$> p) bytes (f a) := by
  have hmap : Recovers (p >>= fun a ↦ pure (f a)) (bytes ++ []) (f a) :=
    h.bind (recovers_pure (f a))
  rwa [List.append_nil] at hmap

/-- What can be read with anything after it is no beginning of anything else. -/
theorem Recovers.eq_of_prefix (h : Recovers p bytes a) (h' : Recovers p bytes' a')
    (hle : bytes <+: bytes') :
    a' = a ∧ bytes' = bytes := by
  obtain ⟨tail, htail⟩ := hle
  have hread := h tail
  have hread' := h' []
  rw [htail] at hread
  rw [List.append_nil, hread] at hread'
  cases hread'
  rw [← htail, List.append_nil]
  exact ⟨rfl, rfl⟩

theorem recovers_byte (b : UInt8) : Recovers byte [b] b := fun _ ↦ rfl

theorem recovers_fixed {n : Nat} (f : FixedBytes n) : Recovers (fixed n) f.toList f := by
  intro tail
  rw [fixed, List.take_left' f.length_eq, List.drop_left' f.length_eq, FixedBytes.ofList?_toList]
  rfl

theorem recovers_address (a : Address) : Recovers address a.toList a :=
  (recovers_fixed a.bytes).map Address.mk

theorem recovers_count {n : Nat} (h : n < 0x10000) :
    Recovers count (CompactCount.encode (UInt16.ofNat n)) n := by
  intro tail
  rw [count, CompactCount.decode_encode_append]
  dsimp only
  rw [List.drop_left, UInt16.toNat_ofNat_of_lt' h]

section Counted

variable {item : Parse α} {write : α → Bytes} {items : List α}

theorem recovers_times (h : ∀ a ∈ items, Recovers item (write a) a) :
    Recovers (times item items.length) (items.flatMap write) items := by
  induction items with
  | nil => exact recovers_pure []
  | cons a items ih =>
    have hrest := ih fun b hb ↦ h b (List.mem_cons_of_mem _ hb)
    have hread :
        Recovers (times item (items.length + 1)) (write a ++ (items.flatMap write ++ []))
          (a :: items) :=
      (h a List.mem_cons_self).bind (hrest.bind (recovers_pure (a :: items)))
    rwa [List.append_nil] at hread

theorem recovers_counted (hlt : items.length < 0x10000)
    (h : ∀ a ∈ items, Recovers item (write a) a) :
    Recovers (counted item) (CompactCount.encode (UInt16.ofNat items.length) ++ items.flatMap write)
      items :=
  (recovers_count hlt).bind (recovers_times h)

end Counted

theorem recovers_counted_byte {data : Bytes} (hlt : data.length < 0x10000) :
    Recovers (counted byte) (CompactCount.encode (UInt16.ofNat data.length) ++ data) data := by
  have hread := recovers_counted hlt fun b _ ↦ recovers_byte b
  rwa [List.flatMap_singleton'] at hread

end Parse

theorem CompactCount.ofPart_eq_ok_iff {part : Part} {n : Nat} {bytes : Bytes} :
    ofPart part n = .ok bytes ↔ n < 0x10000 ∧ encode (UInt16.ofNat n) = bytes := by
  unfold ofPart
  by_cases h : n < 0x10000
  · simp [h]
  · simp [h]

open Parse

namespace CompiledInstruction

structure Fits (i : CompiledInstruction) : Prop where
  accounts : i.accountIndices.length < 0x10000
  data : i.data.length < 0x10000

def laidOut (i : CompiledInstruction) : Bytes :=
  i.programIndex :: CompactCount.encode (UInt16.ofNat i.accountIndices.length) ++
    i.accountIndices ++
    CompactCount.encode (UInt16.ofNat i.data.length) ++ i.data

theorem Fits.recovers {i : CompiledInstruction} (h : i.Fits) :
    Recovers Parse.instruction i.laidOut i := by
  have hread : Recovers Parse.instruction _ i := (recovers_byte i.programIndex).bind
    ((recovers_counted_byte h.accounts).bind
        ((recovers_counted_byte h.data).bind (recovers_pure i)))
  simpa [laidOut] using hread

end CompiledInstruction

namespace Message

variable {m : Message} {bytes : Bytes}

structure Fits (m : Message) : Prop where
  accountKeys : m.accountKeys.length < 0x10000
  instructions : m.instructions.length < 0x10000
  each : ∀ i ∈ m.instructions, i.Fits

def laidOut (m : Message) : Bytes :=
  [m.requiredSignatures, m.readonlySigned, m.readonlyUnsigned] ++
    CompactCount.encode (UInt16.ofNat m.accountKeys.length) ++
      m.accountKeys.flatMap Address.toList ++
    m.blockhash.toList ++ CompactCount.encode (UInt16.ofNat m.instructions.length) ++
    m.instructions.flatMap CompiledInstruction.laidOut

theorem Fits.recovers (h : m.Fits) : Recovers Parse.message m.laidOut m := by
  have hread : Recovers Parse.message _ m := (recovers_byte m.requiredSignatures).bind
    ((recovers_byte m.readonlySigned).bind ((recovers_byte m.readonlyUnsigned).bind
      ((recovers_counted h.accountKeys fun a _ ↦ recovers_address a).bind
          ((recovers_fixed m.blockhash).bind
        ((recovers_counted h.instructions fun i hi ↦ (h.each i hi).recovers).bind
            (recovers_pure m))))))
  simpa [laidOut] using hread

theorem serializeInstruction_eq_ok_iff {i : CompiledInstruction} :
    serializeInstruction i = .ok bytes ↔ i.Fits ∧ i.laidOut = bytes := by
  simp only [serializeInstruction, Except.bind_eq_ok_iff, CompactCount.ofPart_eq_ok_iff]
  constructor
  · intro h
    obtain ⟨_, ⟨haccounts, rfl⟩, _, ⟨hdata, rfl⟩, h⟩ := h
    exact ⟨⟨haccounts, hdata⟩, Except.ok.inj h⟩
  · intro h
    obtain ⟨⟨haccounts, hdata⟩, h⟩ := h
    exact ⟨_, ⟨haccounts, rfl⟩, _, ⟨hdata, rfl⟩, congrArg Except.ok h⟩

theorem mapM_serializeInstruction_eq_ok_iff {instructions : List CompiledInstruction}
    {parts : List Bytes} :
    instructions.mapM serializeInstruction = .ok parts ↔
      (∀ i ∈ instructions, i.Fits) ∧ instructions.map CompiledInstruction.laidOut = parts := by
  simp only [Except.mapM_eq_ok_iff, serializeInstruction_eq_ok_iff, List.forall₂_and_left]
  rw [← List.forall₂_map_left_iff (f := CompiledInstruction.laidOut), List.forall₂_eq_eq_eq]

theorem serialize_eq_ok_iff : m.serialize = .ok bytes ↔ m.Fits ∧ m.laidOut = bytes := by
  simp only [serialize, Except.mapError_eq_ok_iff, serializeParts, Except.bind_eq_ok_iff,
    CompactCount.ofPart_eq_ok_iff, mapM_serializeInstruction_eq_ok_iff]
  constructor
  · intro h
    obtain ⟨_, ⟨hkeys, rfl⟩, _, ⟨hcount, rfl⟩, _, ⟨hinstructions, rfl⟩, h⟩ := h
    exact ⟨⟨hkeys, hcount, hinstructions⟩, Except.ok.inj h⟩
  · intro h
    obtain ⟨⟨hkeys, hcount, hinstructions⟩, h⟩ := h
    exact ⟨_, ⟨hkeys, rfl⟩, _, ⟨hcount, rfl⟩, _, ⟨hinstructions, rfl⟩, congrArg Except.ok h⟩

theorem not_fits_iff :
    ¬ m.Fits ↔ 65535 < m.accountKeys.length ∨ 65535 < m.instructions.length ∨
      ∃ i ∈ m.instructions, 65535 < i.accountIndices.length ∨ 65535 < i.data.length := by
  constructor
  · intro h
    by_contra hnone
    simp only [not_or, not_exists, not_and, Nat.not_lt] at hnone
    obtain ⟨hkeys, hcount, hall⟩ := hnone
    exact h ⟨Nat.lt_succ_of_le hkeys, Nat.lt_succ_of_le hcount, fun i hi ↦
      ⟨Nat.lt_succ_of_le (hall i hi).1, Nat.lt_succ_of_le (hall i hi).2⟩⟩
  · intro h hfits
    rcases h with h | h | ⟨i, hi, h | h⟩
    · exact Nat.not_lt.2 h hfits.accountKeys
    · exact Nat.not_lt.2 h hfits.instructions
    · exact Nat.not_lt.2 h (hfits.each i hi).accounts
    · exact Nat.not_lt.2 h (hfits.each i hi).data

theorem exists_serialize_eq_error_iff : (∃ e, m.serialize = .error e) ↔ ¬ m.Fits := by
  constructor
  · intro h hfits
    obtain ⟨e, he⟩ := h
    rw [serialize_eq_ok_iff.2 ⟨hfits, rfl⟩] at he
    cases he
  · intro h
    cases hserialize : m.serialize with
    | error e => exact ⟨e, rfl⟩
    | ok bytes => exact absurd (serialize_eq_ok_iff.1 hserialize).1 h

/-- A message is read back from its bytes, whatever follows them, so the bytes of one message are no
beginning of those of another. Only a count that is too large keeps a message from being written. -/
theorem serialize_exact (m : Message) :
    ((∃ e, m.serialize = .error e) ↔
      65535 < m.accountKeys.length ∨ 65535 < m.instructions.length ∨
        ∃ i ∈ m.instructions, 65535 < i.accountIndices.length ∨ 65535 < i.data.length) ∧
    ∀ bytes, m.serialize = .ok bytes →
      (∀ tail, Parse.message (bytes ++ tail) = some (m, tail)) ∧
      ∀ m' bytes', m'.serialize = .ok bytes' → bytes <+: bytes' → m' = m ∧ bytes' = bytes := by
  constructor
  · rw [exists_serialize_eq_error_iff, not_fits_iff]
  · intro bytes h
    obtain ⟨hfits, hbytes⟩ := serialize_eq_ok_iff.1 h
    have hread := hfits.recovers
    rw [hbytes] at hread
    refine ⟨hread, fun m' bytes' h' hle ↦ ?_⟩
    obtain ⟨hfits', hbytes'⟩ := serialize_eq_ok_iff.1 h'
    have hread' := hfits'.recovers
    rw [hbytes'] at hread'
    exact hread.eq_of_prefix hread' hle

theorem serialize_exact_twoByteCount :
    let feePayer : Address := ⟨.replicate 32 1⟩
    let program : Address := ⟨.replicate 32 2⟩
    let m : Message := ⟨1, 0, 1, [feePayer, program], .replicate 32 3, [⟨1, [0], .replicate 200 7⟩]⟩
    let bytes : Bytes := [1, 0, 1, 2] ++ feePayer.toList ++ program.toList ++ .replicate 32 3 ++
      [1, 1, 1, 0, 200, 1] ++ .replicate 200 7
    m.serialize = .ok bytes ∧ Parse.message (bytes ++ [9]) = some (m, [9]) := by
  intro feePayer program m bytes
  have h : m.serialize = .ok bytes := by decide +kernel
  exact ⟨h, ((serialize_exact m).2 bytes h).1 [9]⟩

end Message

end ValidatorClient.Ledger
