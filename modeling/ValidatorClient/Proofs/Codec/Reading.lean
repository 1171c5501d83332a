import Mathlib.Algebra.Group.Nat.Defs
import ValidatorClient.Codec.Layout
import ValidatorClient.Proofs.Except

namespace ValidatorClient

theorem Bytes.ofLittleEndian_littleEndian {k n : Nat} (h : n < 256 ^ k) :
    ofLittleEndian (littleEndian k n) = n := by
  induction k generalizing n with
  | zero =>
    rw [Nat.pow_zero] at h
    simp only [littleEndian, ofLittleEndian]
    omega
  | succ k ih =>
    have hn : n / 256 < 256 ^ k := by
      rw [Nat.pow_succ] at h
      exact Nat.div_lt_of_lt_mul (by omega)
    have hb : (UInt8.ofNat (n % 256)).toNat = n % 256 :=
      UInt8.toNat_ofNat_of_lt' (Nat.mod_lt _ (by decide))
    rw [littleEndian, ofLittleEndian, ih hn, hb]
    omega

theorem Bytes.littleEndian_ofLittleEndian (bytes : Bytes) :
    littleEndian bytes.length (ofLittleEndian bytes) = bytes := by
  induction bytes with
  | nil => rfl
  | cons b bs ih =>
    have hb := b.toNat_lt
    have hm : (b.toNat + 256 * ofLittleEndian bs) % 256 = b.toNat := by omega
    have hd : (b.toNat + 256 * ofLittleEndian bs) / 256 = ofLittleEndian bs := by omega
    rw [List.length_cons, ofLittleEndian, littleEndian, hm, hd, ih, UInt8.ofNat_toNat]

theorem Bytes.ofLittleEndian_lt (bytes : Bytes) : ofLittleEndian bytes < 256 ^ bytes.length := by
  induction bytes with
  | nil => decide
  | cons b bs ih =>
    have hb := b.toNat_lt
    rw [ofLittleEndian, List.length_cons, Nat.pow_succ]
    omega

namespace Codec

def Reader.Passes (r : Reader) (bytes : Bytes) (r' : Reader) : Prop :=
  r.rest = bytes ++ r'.rest ∧ r'.position = r.position + bytes.length

namespace Reader

variable {r r' : Reader} {bytes bytes' : Bytes}

theorem passes_nil_iff : r.Passes [] r' ↔ r = r' := by
  cases r
  cases r'
  simp [Passes, and_comm, eq_comm]

theorem passes_append_iff :
    r.Passes (bytes ++ bytes') r' ↔ ∃ s, r.Passes bytes s ∧ s.Passes bytes' r' := by
  constructor
  · intro h
    obtain ⟨hrest, hposition⟩ := h
    refine ⟨⟨r.position + bytes.length, bytes' ++ r'.rest⟩, ⟨?_, rfl⟩, rfl, ?_⟩
    · rw [hrest, List.append_assoc]
    · rw [hposition, List.length_append, Nat.add_assoc]
  · intro h
    obtain ⟨s, ⟨hrest, hposition⟩, hrest', hposition'⟩ := h
    refine ⟨?_, ?_⟩
    · rw [hrest, hrest', List.append_assoc]
    · rw [hposition', hposition, List.length_append, Nat.add_assoc]

theorem passes_cons_iff {b : UInt8} :
    r.Passes (b :: bytes) r' ↔ ∃ s, r.Passes [b] s ∧ s.Passes bytes r' := by
  rw [← passes_append_iff, List.singleton_append]

theorem passes_start_iff {position : Nat} {rest : Bytes} :
    (start bytes).Passes bytes' ⟨position, rest⟩ ↔
      bytes = bytes' ++ rest ∧ position = bytes'.length := by
  simp [Passes, start]

theorem Passes.length_le (h : r.Passes bytes r') : bytes.length ≤ r.rest.length := by
  rw [h.1, List.length_append]
  exact Nat.le_add_right _ _

theorem exists_passes {n : Nat} (h : n ≤ r.remaining) :
    ∃ bytes r', bytes.length = n ∧ r.Passes bytes r' := by
  have hlength := List.length_take_of_le h
  exact ⟨r.rest.take n, ⟨r.position + n, r.rest.drop n⟩, hlength,
    (List.take_append_drop n r.rest).symm, by rw [hlength]⟩

end Reader

namespace Read

variable {α β : Type} {r r' : Reader}

theorem bind_eq_ok_iff {read : Read α} {next : α → Read β} {b : β} :
    (read >>= next) r = (.ok b, r') ↔ ∃ a s, read r = (.ok a, s) ∧ next a s = (.ok b, r') := by
  simp only [bind, ExceptT.bind, ExceptT.mk, StateT.bind]
  rcases read r with ⟨e | a, s⟩
  · constructor
    · intro h
      have hfail : ((.error e : Except Error β), s) = (.ok b, r') := h
      cases hfail
    · intro h
      obtain ⟨_, _, h, -⟩ := h
      cases h
  · constructor
    · exact fun h ↦ ⟨a, s, rfl, h⟩
    · intro h
      obtain ⟨_, _, h, h'⟩ := h
      cases h
      exact h'

theorem bind_of_ok {read : Read α} {next : α → Read β} {a : α} (h : read r = (.ok a, r')) :
    (read >>= next) r = next a r' := by
  simp only [bind, ExceptT.bind, ExceptT.mk, StateT.bind]
  rw [h]
  rfl

theorem bind_eq_error {read : Read α} {next : α → Read β} {e : Error}
    (h : read r = (.error e, r')) :
    (read >>= next) r = (.error e, r') := by
  simp only [bind, ExceptT.bind, ExceptT.mk, StateT.bind]
  rw [h]
  rfl

theorem pure_eq_ok_iff {a b : α} : (pure a : Read α) r = (.ok b, r') ↔ a = b ∧ r = r' := by
  constructor
  · intro h
    cases h
    exact ⟨rfl, rfl⟩
  · intro h
    obtain ⟨rfl, rfl⟩ := h
    rfl

theorem map_eq_ok_iff {read : Read α} {f : α → β} {b : β} :
    (f <$> read) r = (.ok b, r') ↔ ∃ a, read r = (.ok a, r') ∧ f a = b := by
  rw [map_eq_pure_bind, bind_eq_ok_iff]
  constructor
  · intro h
    obtain ⟨a, s, ha, h⟩ := h
    obtain ⟨rfl, rfl⟩ := pure_eq_ok_iff.1 h
    exact ⟨a, ha, rfl⟩
  · intro h
    obtain ⟨a, ha, rfl⟩ := h
    exact ⟨a, r', ha, rfl⟩

theorem fail_ne_ok {e : Error} {a : α} : fail e r ≠ (.ok a, r') := by
  intro h
  cases h

theorem byte_eq_ok_iff {b : UInt8} : byte r = (.ok b, r') ↔ r.Passes [b] r' := by
  obtain ⟨position, rest⟩ := r
  obtain ⟨position', rest'⟩ := r'
  cases rest with
  | nil =>
    constructor
    · intro h
      cases h
    · intro h
      obtain ⟨h, -⟩ := h
      cases h
  | cons b' rest =>
    constructor
    · intro h
      cases h
      exact ⟨rfl, rfl⟩
    · intro h
      obtain ⟨h, rfl⟩ := h
      obtain ⟨rfl, rfl⟩ := List.cons.inj h
      rfl

theorem take_eq_ok_iff {n : Nat} {bytes : Bytes} :
    take n r = (.ok bytes, r') ↔ bytes.length = n ∧ r.Passes bytes r' := by
  obtain ⟨position, rest⟩ := r
  obtain ⟨position', rest'⟩ := r'
  unfold take
  split
  · rename_i h
    have hn := (Bytes.hasAtLeast_iff n rest).1 h
    constructor
    · intro h
      cases h
      have hl := List.length_take_of_le hn
      exact ⟨hl, (List.take_append_drop n rest).symm, by rw [hl]⟩
    · intro h
      obtain ⟨rfl, hrest, hposition⟩ := h
      dsimp only at hrest hposition ⊢
      rw [hrest, hposition, List.take_left, List.drop_left]
  · rename_i h
    constructor
    · intro h
      cases h
    · intro h
      obtain ⟨rfl, hp⟩ := h
      exact absurd ((Bytes.hasAtLeast_iff _ _).2 hp.length_le) h

theorem ensure_eq_ok_iff {n : Nat} : ensure n r = (.ok (), r') ↔ n ≤ r.rest.length ∧ r = r' := by
  rw [← Bytes.hasAtLeast_iff]
  unfold ensure
  split
  · rename_i h
    constructor
    · intro h'
      cases h'
      exact ⟨h, rfl⟩
    · intro h
      obtain ⟨-, rfl⟩ := h
      rfl
  · rename_i h
    constructor
    · intro h'
      cases h'
    · exact fun h' ↦ absurd h'.1 h

theorem fixed_eq_ok_iff {n : Nat} {bytes : FixedBytes n} :
    fixed n r = (.ok bytes, r') ↔ r.Passes bytes.toList r' := by
  have h : fixed n r = (.ok bytes, r') ↔ take n r = (.ok bytes.toList, r') := by
    unfold fixed take
    split
    · constructor
      · intro h
        cases h
        rfl
      · intro h
        obtain ⟨list, length_eq⟩ := bytes
        cases h
        rfl
    · constructor <;> intro h <;> cases h
  rw [h, take_eq_ok_iff, and_iff_right bytes.length_eq]

theorem word_eq_ok_iff {k n : Nat} :
    word k r = (.ok n, r') ↔ n < 256 ^ k ∧ r.Passes (Bytes.littleEndian k n) r' := by
  rw [word, bind_eq_ok_iff]
  constructor
  · intro h
    obtain ⟨bytes, s, hb, h⟩ := h
    obtain ⟨rfl, rfl⟩ := pure_eq_ok_iff.1 h
    obtain ⟨rfl, hp⟩ := take_eq_ok_iff.1 hb
    exact ⟨Bytes.ofLittleEndian_lt bytes, (Bytes.littleEndian_ofLittleEndian bytes).symm ▸ hp⟩
  · intro h
    obtain ⟨hn, hp⟩ := h
    exact ⟨_, r', take_eq_ok_iff.2 ⟨Bytes.length_littleEndian k n, hp⟩,
      pure_eq_ok_iff.2 ⟨Bytes.ofLittleEndian_littleEndian hn, rfl⟩⟩

theorem discriminant_eq_ok_iff {name : String} {n : Nat} (hn : n ≤ 256) {i : Fin n} :
    discriminant name n r = (.ok i, r') ↔ r.Passes [UInt8.ofNat i.val] r' := by
  rw [discriminant, bind_eq_ok_iff]
  have hi : (UInt8.ofNat i.val).toNat = i.val :=
    UInt8.toNat_ofNat_of_lt' (Nat.lt_of_lt_of_le i.isLt hn)
  constructor
  · intro h
    obtain ⟨b, s, hb, h⟩ := h
    split at h
    · obtain ⟨rfl, rfl⟩ := pure_eq_ok_iff.1 h
      rw [UInt8.ofNat_toNat]
      exact byte_eq_ok_iff.1 hb
    · exact absurd h fail_ne_ok
  · intro hp
    refine ⟨_, r', byte_eq_ok_iff.2 hp, ?_⟩
    rw [dif_pos (by rw [hi]; exact i.isLt)]
    exact pure_eq_ok_iff.2 ⟨Fin.ext hi, rfl⟩

theorem discriminant_of_le {name : String} {n position : Nat} {b : UInt8} {rest : Bytes}
    (h : n ≤ b.toNat) :
    discriminant name n ⟨position, b :: rest⟩ =
      (.error (.unknownVariant name b), ⟨position + 1, rest⟩) := by
  change (if h : b.toNat < n then pure ⟨b.toNat, h⟩
    else fail (.unknownVariant name b) : Read (Fin n))
    ⟨position + 1, rest⟩ = _
  rw [dif_neg (Nat.not_lt.2 h)]
  rfl

end Read

end Codec

end ValidatorClient
