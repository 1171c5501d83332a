import ValidatorClient.Proofs.Codec.Reading

namespace ValidatorClient.Codec

inductive Operation where
  | ensure (n : Nat)
  | take (n : Nat)
  | byte
  | fixed (n : Nat)
  | count
  | discriminant (typeName : String) (variants : UInt8)

namespace Operation

def Result : Operation → Type
  | ensure _ => Unit
  | take _ => Bytes
  | byte => UInt8
  | fixed n => FixedBytes n
  | count => Nat
  | discriminant _ variants => Fin variants.toNat

def read : (o : Operation) → Read o.Result
  | ensure n => Read.ensure n
  | take n => Read.take n
  | byte => Read.byte
  | fixed n => Read.fixed n
  | count => Read.count
  | discriminant typeName variants => Read.discriminant typeName variants.toNat

def size : Operation → Nat
  | ensure n | take n | fixed n => n
  | byte | discriminant _ _ => 1
  | count => 4

/-- How many bytes it consumes when it succeeds: all that it asks for, unless it only looks whether
they are there. -/
def advance : Operation → Nat
  | ensure _ => 0
  | o => o.size

def Admits : Operation → Option UInt8 → Prop
  | discriminant _ variants, some b => b < variants
  | _, _ => True

def spelling : (o : Operation) → o.Result → Bytes
  | ensure _, _ => []
  | take _, bytes => bytes
  | byte, b => [b]
  | fixed _, bytes => bytes.toList
  | count, n => Bytes.littleEndian 4 n
  | discriminant _ _, i => [UInt8.ofNat i.val]

/-- The bytes that are known from an answer. Of the failures only that of a discriminant names
one. -/
def consumed (o : Operation) : Except Error o.Result → Bytes
  | .ok a => o.spelling a
  | .error (.unknownVariant _ b) => [b]
  | .error _ => []

variable {o : Operation} {r r' : Reader}

theorem read_of_short (h : r.remaining < o.size) :
    o.read r = (.error (.truncated o.size r.remaining), r) := by
  have hfew {n : Nat} (hn : r.remaining < n) : ¬ r.rest.hasAtLeast n = true := by
    rw [Bytes.hasAtLeast_iff]
    exact Nat.not_le.2 hn
  have htake {n : Nat} (hn : r.remaining < n) :
      Read.take n r = (.error (.truncated n r.remaining), r) :=
    if_neg (hfew hn)
  have hbyte (hn : r.remaining < 1) : Read.byte r = (.error (.truncated 1 r.remaining), r) := by
    obtain ⟨position, rest⟩ := r
    obtain rfl : rest = [] := List.length_eq_zero_iff.1 (Nat.lt_one_iff.1 hn)
    rfl
  cases o with
  | ensure n => exact if_neg (hfew h)
  | take n => exact htake h
  | byte => exact hbyte h
  | fixed n => exact dif_neg (hfew h)
  | count => exact Read.bind_eq_error (htake h)
  | discriminant typeName variants => exact Read.bind_eq_error (hbyte h)

theorem passes_of_read {a : o.Result} (h : o.read r = (.ok a, r')) :
    r.Passes (o.spelling a) r' ∧ (o.spelling a).length = o.advance := by
  cases o with
  | ensure n =>
    obtain ⟨-, rfl⟩ := Read.ensure_eq_ok_iff.1 h
    exact ⟨Reader.passes_nil_iff.2 rfl, rfl⟩
  | take n =>
    obtain ⟨hlength, hpasses⟩ := Read.take_eq_ok_iff.1 h
    exact ⟨hpasses, hlength⟩
  | byte => exact ⟨Read.byte_eq_ok_iff.1 h, rfl⟩
  | fixed n => exact ⟨Read.fixed_eq_ok_iff.1 h, a.length_eq⟩
  | count => exact ⟨(Read.word_eq_ok_iff.1 h).2, Bytes.length_littleEndian 4 a⟩
  | discriminant typeName variants =>
    exact ⟨(Read.discriminant_eq_ok_iff (Nat.le_of_lt variants.toNat_lt)).1 h, rfl⟩

theorem exists_read (h : o.size ≤ r.remaining) (hnext : o.Admits r.rest.head?) :
    ∃ a r', o.read r = (.ok a, r') := by
  obtain ⟨bytes, r', hlength, hpasses⟩ := Reader.exists_passes h
  cases o with
  | ensure n => exact ⟨(), r, Read.ensure_eq_ok_iff.2 ⟨h, rfl⟩⟩
  | take n => exact ⟨bytes, r', Read.take_eq_ok_iff.2 ⟨hlength, hpasses⟩⟩
  | byte =>
    obtain ⟨b, rfl⟩ := List.length_eq_one_iff.1 hlength
    exact ⟨b, r', Read.byte_eq_ok_iff.2 hpasses⟩
  | fixed n => exact ⟨⟨bytes, hlength⟩, r', Read.fixed_eq_ok_iff.2 hpasses⟩
  | count =>
    have hlt := Bytes.ofLittleEndian_lt bytes
    have hbytes := Bytes.littleEndian_ofLittleEndian bytes
    rw [hlength] at hlt hbytes
    exact ⟨Bytes.ofLittleEndian bytes, r', Read.word_eq_ok_iff.2 ⟨hlt, hbytes.symm ▸ hpasses⟩⟩
  | discriminant typeName variants =>
    obtain ⟨b, rfl⟩ := List.length_eq_one_iff.1 hlength
    rw [hpasses.1] at hnext
    have hb : UInt8.ofNat b.toNat = b := UInt8.ofNat_toNat
    exact ⟨⟨b.toNat, hnext⟩, r',
      (Read.discriminant_eq_ok_iff (Nat.le_of_lt variants.toNat_lt)).2 (hb.symm ▸ hpasses)⟩

theorem read_of_not_admits (h : o.size ≤ r.remaining) (hnext : ¬ o.Admits r.rest.head?) :
    ∃ typeName variants b r', o = discriminant typeName variants ∧ variants ≤ b ∧ r.Passes [b] r' ∧
      o.read r = (.error (.unknownVariant typeName b), r') := by
  obtain ⟨position, rest⟩ := r
  cases o with
  | discriminant typeName variants =>
    cases rest with
    | nil => exact absurd trivial hnext
    | cons b rest =>
      have hb : variants ≤ b := UInt8.not_lt.1 hnext
      exact ⟨typeName, variants, b, ⟨position + 1, rest⟩, rfl, hb, ⟨rfl, rfl⟩,
        Read.discriminant_of_le hb⟩
  | _ => exact absurd trivial hnext

theorem exists_read_iff :
    (∃ a r', o.read r = (.ok a, r')) ↔ o.size ≤ r.remaining ∧ o.Admits r.rest.head? := by
  constructor
  · intro h
    obtain ⟨a, r', h⟩ := h
    have hsize : o.size ≤ r.remaining := by
      by_contra hshort
      cases h.symm.trans (read_of_short (Nat.not_le.1 hshort))
    refine ⟨hsize, ?_⟩
    by_contra hnext
    obtain ⟨_, _, _, _, -, -, -, hfault⟩ := read_of_not_admits hsize hnext
    cases h.symm.trans hfault
  · exact fun h ↦ exists_read h.1 h.2

theorem read_error_cases {e : Error} (h : o.read r = (.error e, r')) :
    (r.remaining < o.size ∧ e = .truncated o.size r.remaining ∧ r' = r) ∨
      ∃ typeName variants b, o = discriminant typeName variants ∧ variants ≤ b ∧ r.Passes [b] r' ∧
        e = .unknownVariant typeName b := by
  by_cases hsize : o.size ≤ r.remaining
  · by_cases hnext : o.Admits r.rest.head?
    · obtain ⟨_, _, hread⟩ := exists_read hsize hnext
      cases h.symm.trans hread
    · obtain ⟨typeName, variants, b, _, ho, hb, hpasses, hread⟩ := read_of_not_admits hsize hnext
      cases h.symm.trans hread
      exact .inr ⟨typeName, variants, b, ho, hb, hpasses, rfl⟩
  · have hshort := Nat.not_le.1 hsize
    cases h.symm.trans (read_of_short hshort)
    exact .inl ⟨hshort, rfl, rfl⟩

/-- What one operation consumes is what its answer names. -/
theorem passes_consumed (o : Operation) (r : Reader) :
    r.Passes (o.consumed (o.read r).1) (o.read r).2 := by
  rcases h : o.read r with ⟨e | a, r'⟩
  · rcases read_error_cases h with ⟨-, rfl, rfl⟩ | ⟨_, _, _, -, -, hpasses, rfl⟩
    · exact Reader.passes_nil_iff.2 rfl
    · exact hpasses
  · exact (passes_of_read h).1

end Operation

abbrev Answered := (o : Operation) × Except Error o.Result

def Answered.consumed (d : Answered) : Bytes := d.1.consumed d.2

namespace Reader

/-- Operations one after the other, also after one has failed: their answers, and where the reader
stands then. -/
def runAll : List Operation → Reader → List Answered × Reader
  | [], r => ([], r)
  | o :: os, r => (⟨o, (o.read r).1⟩ :: (runAll os (o.read r).2).1, (runAll os (o.read r).2).2)

theorem passes_runAll (os : List Operation) (r : Reader) :
    r.Passes ((runAll os r).1.flatMap Answered.consumed) (runAll os r).2 := by
  induction os generalizing r with
  | nil => exact passes_nil_iff.2 rfl
  | cons o os ih => exact passes_append_iff.2 ⟨(o.read r).2, o.passes_consumed r, ih (o.read r).2⟩

variable {buffer bytes : Bytes} {r : Reader}

theorem of_passes_start (h : (start buffer).Passes bytes r) :
    r.position + r.remaining = buffer.length ∧ bytes = buffer.take r.position ∧
      buffer[r.position]? = r.rest.head? := by
  obtain ⟨rfl, hposition⟩ := passes_start_iff.1 h
  rw [hposition]
  refine ⟨List.length_append.symm, List.take_left.symm, ?_⟩
  rw [List.getElem?_append_right (Nat.le_refl _), Nat.sub_self, List.head?_eq_getElem?]

/-- After any operations, of which some may have failed, the reader stands within its input, and
their answers name the bytes of the input up to there, in order. From there on an operation succeeds
exactly if as many bytes are left as it asks for and, where it asks for a discriminant, the next
byte is one; the place where its bytes end is then one of the input. It fails for want of bytes
without consuming any, and otherwise only for a discriminant, which has been consumed then. -/
theorem runAll_exact (buffer : Bytes) (os : List Operation) :
    let r := (runAll os (start buffer)).2
    r.position ≤ buffer.length ∧ r.position + r.remaining = buffer.length ∧
    (runAll os (start buffer)).1.flatMap Answered.consumed = buffer.take r.position ∧
    ∀ o : Operation,
      (o.size ≤ r.remaining → r.position + o.size ≤ buffer.length) ∧
      ((∃ a r', o.read r = (.ok a, r')) ↔ o.size ≤ r.remaining ∧ o.Admits buffer[r.position]?) ∧
      (∀ a r', o.read r = (.ok a, r') → r'.position = r.position + o.advance) ∧
      (r.remaining < o.size → o.read r = (.error (.truncated o.size r.remaining), r)) ∧
      ∀ e r', o.read r = (.error e, r') → r.remaining < o.size ∨
        ∃ typeName variants b, o = .discriminant typeName variants ∧ buffer[r.position]? = some b ∧
          variants ≤ b ∧
          e = .unknownVariant typeName b ∧ r'.position = r.position + 1 := by
  intro r
  obtain ⟨hlength, hconsumed, hnext⟩ := of_passes_start (r := r) (passes_runAll os (start buffer))
  refine ⟨by omega, hlength, hconsumed,
    fun o ↦ ⟨by omega, ?succeeds, ?moves, Operation.read_of_short, ?fails⟩⟩
  case succeeds =>
    rw [hnext]
    exact Operation.exists_read_iff
  case moves =>
    intro a r' h
    obtain ⟨⟨-, hmoved⟩, hadvance⟩ := Operation.passes_of_read h
    rw [hmoved, hadvance]
  case fails =>
    intro e r' h
    rcases Operation.read_error_cases h with
      ⟨hshort, -⟩ | ⟨typeName, variants, b, ho, hb, ⟨hrest, hmoved⟩, he⟩
    · exact .inl hshort
    · rw [hnext, hrest]
      exact .inr ⟨typeName, variants, b, ho, rfl, hb, he, hmoved⟩

theorem runAll_exact_mixed :
    let buffer : Bytes := [7, 3, 1, 0]
    let os : List Operation := [.take (2 ^ 64 - 1), .discriminant "Rarity" 3, .count, .byte]
    let r := (runAll os (start buffer)).2
    r = ⟨2, [1, 0]⟩ ∧ (runAll os (start buffer)).1.flatMap Answered.consumed = buffer.take 2 ∧
      r.remaining < Operation.count.size ∧ Operation.count.read r = (.error (.truncated 4 2), r) ∧
      (Operation.fixed 2).size ≤ r.remaining ∧ 2 + 2 ≤ buffer.length ∧
      ∃ a r', (Operation.fixed 2).read r = (.ok a, r') ∧ r'.position = 2 + 2 := by
  intro buffer os r
  obtain ⟨-, -, hconsumed, hnext⟩ := runAll_exact buffer os
  have hr : r = ⟨2, [1, 0]⟩ := by decide +kernel
  have hshort : r.remaining < Operation.count.size := by decide +kernel
  have hlong : (Operation.fixed 2).size ≤ r.remaining := by decide +kernel
  obtain ⟨-, -, -, htruncated, -⟩ := hnext .count
  obtain ⟨hbound, hsucceeds, hmoves, -⟩ := hnext (.fixed 2)
  obtain ⟨a, r', hread⟩ := hsucceeds.2 ⟨hlong, trivial⟩
  exact ⟨hr, hconsumed, hshort, htruncated hshort, hlong, hbound hlong, a, r', hread,
    hmoves a r' hread⟩

end Reader

end ValidatorClient.Codec
