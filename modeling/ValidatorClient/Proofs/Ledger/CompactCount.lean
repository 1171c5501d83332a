import ValidatorClient.Proofs.Ledger.Wire
import Mathlib.Tactic.Ring

namespace ValidatorClient.Ledger.CompactCount

/-- A number in groups of seven bits, lowest first. The top bit of a byte says that another one
follows. -/
inductive Spells : Nat → Bytes → Prop
  | last {b : UInt8} (hb : b.toNat < 128) : Spells b.toNat [b]
  | more {b : UInt8} {n : Nat} {rest : Bytes} (hb : 128 ≤ b.toNat) (h : Spells n rest) :
    Spells (b.toNat % 128 + 128 * n) (b :: rest)

/-- The last byte adds nothing but zeros at the top. -/
def IsPadded (spelling : Bytes) : Prop := 1 < spelling.length ∧ spelling.getLast? = some 0

variable {n place low consumed k length : Nat} {count : UInt16} {b : UInt8}
  {bytes spelling spelling' rest : Bytes}

theorem not_spells_nil : ¬ Spells n [] := by
  intro h
  cases h

theorem spells_cons_iff : Spells n (b :: rest) ↔
    b.toNat < 128 ∧ rest = [] ∧ n = b.toNat ∨
      128 ≤ b.toNat ∧ ∃ m, Spells m rest ∧ n = b.toNat % 128 + 128 * m := by
  constructor
  · intro h
    cases h with
    | last hb => exact .inl ⟨hb, rfl, rfl⟩
    | more hb h => exact .inr ⟨hb, _, h, rfl⟩
  · rintro (⟨hb, rfl, rfl⟩ | ⟨hb, m, h, rfl⟩)
    · exact .last hb
    · exact .more hb h

theorem Spells.length_pos (h : Spells n spelling) : 0 < spelling.length := by
  cases h <;> simp

theorem Spells.eq_of_length (h : Spells n spelling) (h' : Spells n spelling')
    (hlength : spelling.length = spelling'.length) : spelling = spelling' := by
  induction h generalizing spelling' with
  | last hb =>
    obtain ⟨b', rfl⟩ := List.length_eq_one_iff.1 hlength.symm
    rcases spells_cons_iff.1 h' with ⟨-, -, hn⟩ | ⟨-, m, hm, -⟩
    · rw [UInt8.toNat_inj.1 hn]
    · exact absurd hm not_spells_nil
  | @more b n rest hb h ih =>
    cases spelling' with
    | nil => cases hlength
    | cons b' rest' =>
      have hrest : rest.length = rest'.length := Nat.succ.inj hlength
      rcases spells_cons_iff.1 h' with ⟨-, rfl, -⟩ | ⟨hb', m, hm, hn⟩
      · exact absurd h.length_pos (by simp [hrest])
      · obtain rfl : n = m := by omega
        have hbyte : b = b' := by
          apply UInt8.toNat_inj.1
          have hlt := b.toNat_lt
          have hlt' := b'.toNat_lt
          omega
        rw [hbyte, ih hm hrest]

theorem Spells.pos_of_last (h : Spells n spelling) (hlast : spelling.getLast? ≠ some 0) :
    0 < n := by
  induction h with
  | @last b hb =>
    apply Nat.pos_of_ne_zero
    intro hzero
    apply hlast
    rw [List.getLast?_singleton, UInt8.toNat_inj.1 (hzero.trans UInt8.toNat_zero.symm)]
  | @more b n rest hb h ih =>
    have hrest : rest ≠ [] := List.length_pos_iff.1 h.length_pos
    have hpos := ih (by rwa [List.getLast?_cons_of_ne_nil hrest] at hlast)
    omega

/-- A spelling without padding is a shortest one. -/
theorem Spells.length_le (h : Spells n spelling) (hpadded : ¬ IsPadded spelling)
    (h' : Spells n spelling') :
    spelling.length ≤ spelling'.length := by
  induction h generalizing spelling' with
  | last hb => exact h'.length_pos
  | @more b n rest hb h ih =>
    have hrest : rest ≠ [] := List.length_pos_iff.1 h.length_pos
    have hlast : rest.getLast? ≠ some 0 := by
      intro hlast
      apply hpadded
      refine ⟨?_, by rwa [List.getLast?_cons_of_ne_nil hrest]⟩
      have hpos := h.length_pos
      simpa using hpos
    have hpos := h.pos_of_last hlast
    cases spelling' with
    | nil => exact absurd h' not_spells_nil
    | cons b' rest' =>
      rcases spells_cons_iff.1 h' with ⟨hb', -, hn⟩ | ⟨-, m, hm, hn⟩
      -- One byte has no place for what the rest spells, which is not zero.
      · omega
      · obtain rfl : n = m := by omega
        have hle := ih (fun hp ↦ hlast hp.2) hm
        simpa using hle

theorem Spells.eq_of_not_isPadded (h : Spells n spelling) (hpadded : ¬ IsPadded spelling)
    (h' : Spells n spelling') (hpadded' : ¬ IsPadded spelling') : spelling = spelling' :=
  h.eq_of_length h' (Nat.le_antisymm (h.length_le hpadded h') (h'.length_le hpadded' h))

theorem decodeFrom_cons_of_lt (hb : b.toNat < 128) :
    decodeFrom place low consumed (k + 1) (b :: bytes) = .ok (count, length) ↔
      count.toNat = low + b.toNat * place ∧ length = consumed + 1 := by
  by_cases hn : low + b.toNat * place < 0x10000
  · rw [decodeFrom_of_lt hb hn, Except.ok.injEq, Prod.mk.injEq, ← UInt16.toNat_inj,
      UInt16.toNat_ofNat_of_lt' hn]
    constructor
    · exact fun h ↦ ⟨h.1.symm, h.2.symm⟩
    · exact fun h ↦ ⟨h.1.symm, h.2.symm⟩
  · rw [decodeFrom, Nat.mod_eq_of_lt hb]
    have hlt := count.toNat_lt
    simp only [Nat.not_le.2 hb, if_false, hn]
    constructor
    · intro h
      cases h
    · intro h
      omega

def Begins (k : Nat) (bytes : Bytes) (n length : Nat) : Prop :=
  ∃ spelling rest, bytes = spelling ++ rest ∧ spelling.length ≤ k ∧ Spells n spelling ∧
    spelling.length = length

theorem not_begins_zero : ¬ Begins 0 bytes n length := by
  rintro ⟨spelling, rest, -, hle, h, -⟩
  exact absurd h.length_pos (Nat.not_lt.2 hle)

theorem not_begins_nil : ¬ Begins k [] n length := by
  rintro ⟨spelling, rest, happend, -, h, -⟩
  obtain ⟨rfl, -⟩ := List.append_eq_nil_iff.1 happend.symm
  exact not_spells_nil h

theorem begins_cons_iff : Begins (k + 1) (b :: bytes) n length ↔
    b.toNat < 128 ∧ n = b.toNat ∧ length = 1 ∨
      128 ≤ b.toNat ∧ ∃ m l, Begins k bytes m l ∧ n = b.toNat % 128 + 128 * m ∧ length = l + 1 := by
  constructor
  · rintro ⟨spelling, rest, happend, hle, h, rfl⟩
    cases spelling with
    | nil => exact absurd h not_spells_nil
    | cons b' spelling =>
      cases happend
      rcases spells_cons_iff.1 h with ⟨hb, rfl, rfl⟩ | ⟨hb, m, hm, rfl⟩
      · exact .inl ⟨hb, rfl, rfl⟩
      · exact .inr ⟨hb, m, _, ⟨spelling, rest, rfl, Nat.le_of_succ_le_succ hle, hm, rfl⟩, rfl, rfl⟩
  · rintro (⟨hb, rfl, rfl⟩ | ⟨hb, m, l, ⟨spelling, rest, rfl, hle, h, rfl⟩, rfl, rfl⟩)
    · exact ⟨[b], bytes, rfl, by simp, .last hb, rfl⟩
    · exact ⟨b :: spelling, rest, rfl, Nat.succ_le_succ hle, .more hb h, rfl⟩

theorem decodeFrom_eq_ok_iff : decodeFrom place low consumed k bytes = .ok (count, length) ↔
    ∃ n l, Begins k bytes n l ∧ count.toNat = low + n * place ∧ length = consumed + l := by
  -- On the number of bytes that may follow: what was read stands below what is still to be read.
  induction k generalizing place low consumed bytes with
  | zero => simp [decodeFrom, not_begins_zero]
  | succ k ih =>
    cases bytes with
    | nil => simp [decodeFrom, not_begins_nil]
    | cons b bytes =>
      rcases Nat.lt_or_ge b.toNat 128 with hb | hb
      · rw [decodeFrom_cons_of_lt hb]
        simp [begins_cons_iff, hb, Nat.not_le.2 hb]
      · have hplace (m : Nat) : low + (b.toNat % 128 + 128 * m) * place =
            low + b.toNat % 128 * place + m * (128 * place) := by ring
        rw [decodeFrom_of_le hb, ih]
        constructor
        · rintro ⟨m, l, h, hcount, hlength⟩
          refine ⟨_, _, begins_cons_iff.2 (.inr ⟨hb, m, l, h, rfl, rfl⟩), ?_, ?_⟩
          · rw [hplace, hcount]
          · omega
        · rintro ⟨n, l, h, hcount, hlength⟩
          rcases begins_cons_iff.1 h with ⟨hb', -⟩ | ⟨-, m, l', hm, rfl, rfl⟩
          · omega
          · refine ⟨m, l', hm, ?_, ?_⟩
            · rw [← hplace, hcount]
            · omega

theorem decode_eq_ok_iff :
    decode bytes = .ok (count, length) ↔ Begins 3 bytes count.toNat length := by
  unfold decode
  rw [decodeFrom_eq_ok_iff]
  simp only [Nat.zero_add, Nat.mul_one]
  constructor
  · rintro ⟨n, l, h, rfl, rfl⟩
    exact h
  · intro h
    exact ⟨_, _, h, rfl, rfl⟩

theorem spells_encode (count : UInt16) :
    (encode count).length ≤ 3 ∧ Spells count.toNat (encode count) := by
  obtain ⟨spelling, rest, happend, hle, h, hlength⟩ :=
    decode_eq_ok_iff.1 (decode_encode_append count [])
  rw [(List.append_inj happend hlength.symm).1]
  exact ⟨hle, h⟩

theorem not_isPadded_encode (count : UInt16) : ¬ IsPadded (encode count) := by
  have hlt := count.toNat_lt
  have hbyte (m : Nat) (hm : 0 < m) (hlt : m < 256) : UInt8.ofNat m ≠ 0 := by
    intro h
    rw [← UInt8.toNat_inj, UInt8.toNat_ofNat_of_lt' hlt] at h
    exact Nat.ne_of_gt hm h
  unfold encode IsPadded
  by_cases h₁ : count.toNat < 0x80
  · simp [h₁]
  · by_cases h₂ : count.toNat < 0x4000
    · simp [h₁, h₂, hbyte (count.toNat / 128) (by omega) (by omega)]
    · simp [h₁, h₂, hbyte (count.toNat / 16384) (by omega) (by omega)]

end ValidatorClient.Ledger.CompactCount
