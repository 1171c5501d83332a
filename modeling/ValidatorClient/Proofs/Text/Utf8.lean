import ValidatorClient.Text.Utf8
import ValidatorClient.Proofs.Except

namespace ValidatorClient.Text.Utf8

inductive Completes : Begun → Bytes → Char → Prop where
  | last {begun : Begun} {b : UInt8} (hdue : begun.due = 0)
      (hb : begun.low ≤ b ∧ b ≤ begun.high) :
      Completes begun [b] (Char.ofNat (64 * begun.code + (b.toNat - 0x80)))
  | more {begun : Begun} {b : UInt8} {due : Nat} {bs : Bytes} {c : Char}
      (hdue : begun.due = due + 1) (hb : begun.low ≤ b ∧ b ≤ begun.high)
      (h : Completes ⟨begun.seen + 1, 64 * begun.code + (b.toNat - 0x80), 0x80, 0xBF, due⟩ bs c) :
      Completes begun (b :: bs) c

theorem decodeFrom_begun_iff {start : Nat} {begun : Begun} {bytes : Bytes} {cs : List Char} :
    decodeFrom start (some begun) bytes = .ok cs ↔
      ∃ tail rest c cs', Completes begun tail c ∧ bytes = tail ++ rest ∧ cs = c :: cs' ∧
        decodeFrom (start + begun.seen + tail.length) none rest = .ok cs' := by
  obtain ⟨seen, code, low, high, due⟩ := begun
  induction due generalizing seen code low high bytes with
  | zero =>
    constructor
    · intro h
      cases bytes with
      | nil => simp [decodeFrom] at h
      | cons b bs =>
        rw [decodeFrom] at h
        split at h
        · rename_i hb
          obtain ⟨cs', hcs, h⟩ := Except.bind_eq_ok_iff.1 h
          cases h
          exact ⟨[b], bs, _, cs', .last rfl hb, rfl, rfl, hcs⟩
        · cases h
    · intro h
      obtain ⟨tail, rest, c, cs', hc, rfl, rfl, hcs⟩ := h
      cases hc with
      | last hdue hb =>
        rw [List.singleton_append, decodeFrom, if_pos hb]
        exact Except.bind_eq_ok_iff.2 ⟨cs', hcs, rfl⟩
      | more hdue => cases hdue
  | succ due ih =>
    constructor
    · intro h
      cases bytes with
      | nil => simp [decodeFrom] at h
      | cons b bs =>
        rw [decodeFrom] at h
        split at h
        · rename_i hb
          obtain ⟨tail, rest, c, cs', hc, rfl, rfl, hcs⟩ := (ih _ _ _ _).1 h
          refine ⟨b :: tail, rest, c, cs', .more rfl hb hc, rfl, rfl, ?_⟩
          rw [List.length_cons, ← hcs]
          congr 1
          dsimp only
          omega
        · cases h
    · intro h
      obtain ⟨tail, rest, c, cs', hc, rfl, rfl, hcs⟩ := h
      cases hc with
      | last hdue => cases hdue
      | more hdue hb hc =>
        cases hdue
        rw [List.cons_append, decodeFrom, if_pos hb]
        refine (ih _ _ _ _).2 ⟨_, rest, c, cs', hc, rfl, rfl, ?_⟩
        rw [← hcs, List.length_cons]
        congr 1
        dsimp only
        omega

theorem toNat_ofNat {n : Nat} (h : n.isValidChar) : (Char.ofNat n).toNat = n := by
  unfold Char.ofNat
  rw [dif_pos h]
  rfl

theorem lead?_two {a : UInt8} (ha : 0xC2 ≤ a.toNat ∧ a.toNat ≤ 0xDF) :
    lead? a = some ⟨1, a.toNat - 0xC0, 0x80, 0xBF, 0⟩ := by
  simp only [lead?, UInt8.le_iff_toNat_le, UInt8.reduceToNat]
  rw [if_pos ha]

/-- The bounds on the second byte leave out overlong encodings and surrogates. -/
theorem lead?_three {a : UInt8} (ha : 0xE0 ≤ a.toNat ∧ a.toNat ≤ 0xEF) :
    ∃ low high, lead? a = some ⟨1, a.toNat - 0xE0, low, high, 1⟩ ∧
      (a.toNat = 0xE0 → low.toNat = 0xA0) ∧ (a.toNat ≠ 0xE0 → low.toNat = 0x80) ∧
      (a.toNat = 0xED → high.toNat = 0x9F) ∧ (a.toNat ≠ 0xED → high.toNat = 0xBF) := by
  simp only [lead?, UInt8.le_iff_toNat_le, ← UInt8.toNat_inj, UInt8.reduceToNat]
  rw [if_neg (by omega)]
  by_cases h : a.toNat = 0xE0
  · exact ⟨0xA0, 0xBF, by simp [h], by simp [h]⟩
  by_cases h' : a.toNat = 0xED
  · exact ⟨0x80, 0x9F, by simp [h'], by simp [h']⟩
  · refine ⟨0x80, 0xBF, ?_, by simp [h, h']⟩
    rw [if_neg h, if_neg h', if_pos (by omega)]

theorem lead?_four {a : UInt8} (ha : 0xF0 ≤ a.toNat ∧ a.toNat ≤ 0xF4) :
    ∃ low high, lead? a = some ⟨1, a.toNat - 0xF0, low, high, 2⟩ ∧
      (a.toNat = 0xF0 → low.toNat = 0x90) ∧ (a.toNat ≠ 0xF0 → low.toNat = 0x80) ∧
      (a.toNat = 0xF4 → high.toNat = 0x8F) ∧ (a.toNat ≠ 0xF4 → high.toNat = 0xBF) := by
  simp only [lead?, UInt8.le_iff_toNat_le, ← UInt8.toNat_inj, UInt8.reduceToNat]
  rw [if_neg (by omega), if_neg (by omega), if_neg (by omega), if_neg (by omega)]
  by_cases h : a.toNat = 0xF0
  · exact ⟨0x90, 0xBF, by simp [h], by simp [h]⟩
  by_cases h' : a.toNat = 0xF4
  · exact ⟨0x80, 0x8F, by simp [h'], by simp [h']⟩
  · refine ⟨0x80, 0xBF, ?_, by simp [h, h']⟩
    rw [if_neg h, if_pos (by omega)]

theorem lead?_bounds {a : UInt8} {begun : Begun} (h : lead? a = some begun) :
    0xC2 ≤ a.toNat ∧ a.toNat ≤ 0xF4 := by
  by_contra hn
  simp only [lead?, UInt8.le_iff_toNat_le, ← UInt8.toNat_inj, UInt8.reduceToNat] at h
  rw [if_neg (by omega), if_neg (by omega), if_neg (by omega), if_neg (by omega),
    if_neg (by omega), if_neg (by omega), if_neg (by omega)] at h
  cases h

theorem completes_zero_iff {seen code : Nat} {low high : UInt8} {bytes : Bytes} {c : Char} :
    Completes ⟨seen, code, low, high, 0⟩ bytes c ↔
      ∃ b, bytes = [b] ∧ low.toNat ≤ b.toNat ∧ b.toNat ≤ high.toNat ∧
        c = Char.ofNat (64 * code + (b.toNat - 0x80)) := by
  constructor
  · intro h
    cases h with
    | @last _ b hdue hb =>
      exact ⟨b, rfl, UInt8.le_iff_toNat_le.1 hb.1, UInt8.le_iff_toNat_le.1 hb.2, rfl⟩
    | more hdue => cases hdue
  · intro h
    obtain ⟨b, rfl, hlow, hhigh, hc⟩ := h
    have hb : low ≤ b ∧ b ≤ high :=
      ⟨UInt8.le_iff_toNat_le.2 hlow, UInt8.le_iff_toNat_le.2 hhigh⟩
    rw [hc]
    apply Completes.last
    · rfl
    · exact hb

theorem completes_succ_iff {seen code due : Nat} {low high : UInt8} {bytes : Bytes} {c : Char} :
    Completes ⟨seen, code, low, high, due + 1⟩ bytes c ↔
      ∃ b bs, bytes = b :: bs ∧ low.toNat ≤ b.toNat ∧ b.toNat ≤ high.toNat ∧
        Completes ⟨seen + 1, 64 * code + (b.toNat - 0x80), 0x80, 0xBF, due⟩ bs c := by
  constructor
  · intro h
    cases h with
    | last hdue => cases hdue
    | @more _ b _ bs _ hdue hb hc =>
      cases hdue
      exact ⟨b, bs, rfl, UInt8.le_iff_toNat_le.1 hb.1, UInt8.le_iff_toNat_le.1 hb.2, hc⟩
  · intro h
    obtain ⟨b, bs, rfl, hlow, hhigh, hc⟩ := h
    exact .more rfl ⟨UInt8.le_iff_toNat_le.2 hlow, UInt8.le_iff_toNat_le.2 hhigh⟩ hc

theorem encodeChar_eq (n : Nat) (h : n.isValidChar) : encodeChar (Char.ofNat n) =
    if n < 0x80 then [UInt8.ofNat n]
    else if n < 0x800 then [UInt8.ofNat (0xC0 + n / 64), UInt8.ofNat (0x80 + n % 64)]
    else if n < 0x10000 then
      [UInt8.ofNat (0xE0 + n / 4096), UInt8.ofNat (0x80 + n / 64 % 64), UInt8.ofNat (0x80 + n % 64)]
    else
      [UInt8.ofNat (0xF0 + n / 262144), UInt8.ofNat (0x80 + n / 4096 % 64),
        UInt8.ofNat (0x80 + n / 64 % 64), UInt8.ofNat (0x80 + n % 64)] := by
  unfold encodeChar
  rw [toNat_ofNat h]

theorem ofNat_eq {n : Nat} {b : UInt8} (h : n = b.toNat) : UInt8.ofNat n = b := by
  rw [h, UInt8.ofNat_toNat]

theorem encodeChar_two {a b : UInt8} {n : Nat} (hn : n = 64 * (a.toNat - 0xC0) + (b.toNat - 0x80))
    (ha : 0xC2 ≤ a.toNat ∧ a.toNat ≤ 0xDF) (hb : 0x80 ≤ b.toNat ∧ b.toNat ≤ 0xBF) :
    0x80 ≤ (Char.ofNat n).toNat ∧ encodeChar (Char.ofNat n) = [a, b] := by
  have hv : n.isValidChar := Or.inl (by omega)
  rw [toNat_ofNat hv, encodeChar_eq n hv, if_neg (by omega), if_pos (by omega),
    ofNat_eq (b := a) (by omega), ofNat_eq (b := b) (by omega)]
  exact ⟨by omega, rfl⟩

theorem encodeChar_three {a b c : UInt8} {n : Nat}
    (hn : n = 64 * (64 * (a.toNat - 0xE0) + (b.toNat - 0x80)) + (c.toNat - 0x80))
    (ha : 0xE0 ≤ a.toNat ∧ a.toNat ≤ 0xEF) (hb : 0x80 ≤ b.toNat ∧ b.toNat ≤ 0xBF)
    (hc : 0x80 ≤ c.toNat ∧ c.toNat ≤ 0xBF) (hlow : a.toNat = 0xE0 → 0xA0 ≤ b.toNat)
    (hhigh : a.toNat = 0xED → b.toNat ≤ 0x9F) :
    0x80 ≤ (Char.ofNat n).toNat ∧ encodeChar (Char.ofNat n) = [a, b, c] := by
  have hv : n.isValidChar := by
    unfold Nat.isValidChar
    omega
  rw [toNat_ofNat hv, encodeChar_eq n hv, if_neg (by omega), if_neg (by omega), if_pos (by omega),
    ofNat_eq (b := a) (by omega), ofNat_eq (b := b) (by omega), ofNat_eq (b := c) (by omega)]
  exact ⟨by omega, rfl⟩

theorem encodeChar_four {a b c d : UInt8} {n : Nat}
    (hn : n = 64 * (64 * (64 * (a.toNat - 0xF0) + (b.toNat - 0x80)) + (c.toNat - 0x80)) +
      (d.toNat - 0x80))
    (ha : 0xF0 ≤ a.toNat ∧ a.toNat ≤ 0xF4) (hb : 0x80 ≤ b.toNat ∧ b.toNat ≤ 0xBF)
    (hc : 0x80 ≤ c.toNat ∧ c.toNat ≤ 0xBF) (hd : 0x80 ≤ d.toNat ∧ d.toNat ≤ 0xBF)
    (hlow : a.toNat = 0xF0 → 0x90 ≤ b.toNat) (hhigh : a.toNat = 0xF4 → b.toNat ≤ 0x8F) :
    0x80 ≤ (Char.ofNat n).toNat ∧ encodeChar (Char.ofNat n) = [a, b, c, d] := by
  have hv : n.isValidChar := by
    unfold Nat.isValidChar
    omega
  rw [toNat_ofNat hv, encodeChar_eq n hv, if_neg (by omega), if_neg (by omega), if_neg (by omega),
    ofNat_eq (b := a) (by omega), ofNat_eq (b := b) (by omega), ofNat_eq (b := c) (by omega),
    ofNat_eq (b := d) (by omega)]
  exact ⟨by omega, rfl⟩

/-- What a leading byte begins and the bytes that complete it are the encoding of one character. -/
theorem encodeChar_of_completes {a : UInt8} {begun : Begun} {tail : Bytes} {c : Char}
    (hlead : lead? a = some begun) (h : Completes begun tail c) :
    0x80 ≤ c.toNat ∧ encodeChar c = a :: tail := by
  have ha := lead?_bounds hlead
  by_cases h₂ : a.toNat ≤ 0xDF
  · rw [lead?_two ⟨ha.1, h₂⟩] at hlead
    cases hlead
    obtain ⟨b, rfl, hb, hb', hn⟩ := completes_zero_iff.1 h
    rw [hn]
    exact encodeChar_two rfl ⟨ha.1, h₂⟩ ⟨hb, hb'⟩
  by_cases h₃ : a.toNat ≤ 0xEF
  · obtain ⟨low, high, hl, hbounds⟩ := lead?_three (a := a) (by omega)
    cases hlead.symm.trans hl
    obtain ⟨b, _, rfl, hb, hb', h⟩ := completes_succ_iff.1 h
    obtain ⟨c, rfl, hc, hc', hn⟩ := completes_zero_iff.1 h
    rw [hn]
    exact encodeChar_three rfl (by omega) (by omega) ⟨hc, hc'⟩ (by omega) (by omega)
  · obtain ⟨low, high, hl, hbounds⟩ := lead?_four (a := a) (by omega)
    cases hlead.symm.trans hl
    obtain ⟨b, _, rfl, hb, hb', h⟩ := completes_succ_iff.1 h
    obtain ⟨c, _, rfl, hc, hc', h⟩ := completes_succ_iff.1 h
    obtain ⟨d, rfl, hd, hd', hn⟩ := completes_zero_iff.1 h
    rw [hn]
    exact encodeChar_four rfl (by omega) (by omega) ⟨hc, hc'⟩ ⟨hd, hd'⟩ (by omega) (by omega)

theorem toNat_ofNat_byte {n : Nat} (h : n < 256) : (UInt8.ofNat n).toNat = n :=
  UInt8.toNat_ofNat_of_lt' h

theorem eq_ofNat {c : Char} {n : Nat} (h : n = c.toNat) : c = Char.ofNat n := by
  rw [h, Char.ofNat_toNat]

theorem exists_completes {c : Char} (hc : 0x80 ≤ c.toNat) :
    ∃ a begun tail, encodeChar c = a :: tail ∧ lead? a = some begun ∧ Completes begun tail c := by
  have hv : c.toNat < 0xD800 ∨ 0xDFFF < c.toNat ∧ c.toNat < 0x110000 := c.valid
  have h₀ : (0x80 : UInt8).toNat = 0x80 ∧ (0xBF : UInt8).toNat = 0xBF := by decide
  unfold encodeChar
  generalize hn : c.toNat = n at hc hv
  have h₁ := toNat_ofNat_byte (n := 0x80 + n % 64) (by omega)
  have h₂ := toNat_ofNat_byte (n := 0x80 + n / 64 % 64) (by omega)
  have h₃ := toNat_ofNat_byte (n := 0x80 + n / 4096 % 64) (by omega)
  rw [if_neg (by omega)]
  split
  · have ha := toNat_ofNat_byte (n := 0xC0 + n / 64) (by omega)
    refine ⟨_, _, _, rfl, lead?_two (by omega), completes_zero_iff.2 ⟨_, rfl, ?_, ?_, eq_ofNat ?_⟩⟩
    all_goals omega
  split
  · have ha := toNat_ofNat_byte (n := 0xE0 + n / 4096) (by omega)
    obtain ⟨low, high, hl, hbounds⟩ := lead?_three (a := UInt8.ofNat (0xE0 + n / 4096)) (by omega)
    refine ⟨_, _, _, rfl, hl, completes_succ_iff.2 ⟨_, _, rfl, ?_, ?_,
      completes_zero_iff.2 ⟨_, rfl, ?_, ?_, eq_ofNat ?_⟩⟩⟩
    all_goals omega
  · have ha := toNat_ofNat_byte (n := 0xF0 + n / 262144) (by omega)
    obtain ⟨low, high, hl, hbounds⟩ := lead?_four (a := UInt8.ofNat (0xF0 + n / 262144)) (by omega)
    refine ⟨_, _, _, rfl, hl, completes_succ_iff.2 ⟨_, _, rfl, ?_, ?_,
      completes_succ_iff.2 ⟨_, _, rfl, ?_, ?_, completes_zero_iff.2 ⟨_, rfl, ?_, ?_, eq_ofNat ?_⟩⟩⟩⟩
    all_goals omega

theorem encodeChar_one {b : UInt8} (hb : b < 0x80) : encodeChar (Char.ofNat b.toNat) = [b] := by
  have hb' : b.toNat < 0x80 := UInt8.lt_iff_toNat_lt.1 hb
  rw [encodeChar_eq _ (Or.inl (by omega)), if_pos hb', UInt8.ofNat_toNat]

theorem encodeChars_of_decodeFrom {start : Nat} {bytes : Bytes} {cs : List Char}
    (h : decodeFrom start none bytes = .ok cs) : encodeChars cs = bytes := by
  induction hl : bytes.length using Nat.strongRecOn generalizing start bytes cs with
  | ind l ih =>
    cases bytes with
    | nil =>
      cases h
      rfl
    | cons b bs =>
      rw [decodeFrom] at h
      split at h
      · rename_i hb
        obtain ⟨cs', hcs, h⟩ := Except.bind_eq_ok_iff.1 h
        cases h
        have hbs := ih bs.length (by rw [← hl]; exact Nat.lt_succ_self _) hcs rfl
        rw [encodeChars, List.flatMap_cons, encodeChar_one hb]
        exact congrArg (b :: ·) hbs
      · split at h
        · cases h
        · rename_i begun hlead
          obtain ⟨tail, rest, c, cs', hc, rfl, rfl, hcs⟩ := decodeFrom_begun_iff.1 h
          have hrest :=
            ih rest.length (by simp only [← hl, List.length_cons, List.length_append]; omega)
            hcs rfl
          rw [encodeChars, List.flatMap_cons, (encodeChar_of_completes hlead hc).2]
          exact congrArg (b :: tail ++ ·) hrest

theorem decodeFrom_encodeChars (start : Nat) (cs : List Char) :
    decodeFrom start none (encodeChars cs) = .ok cs := by
  induction cs generalizing start with
  | nil => rfl
  | cons c cs ih =>
    by_cases hc : c.toNat < 0x80
    · have hb := toNat_ofNat_byte (n := c.toNat) (by omega)
      have hlt : UInt8.ofNat c.toNat < 0x80 := by
        rw [UInt8.lt_iff_toNat_lt, hb]
        exact hc
      have he : encodeChars (c :: cs) = UInt8.ofNat c.toNat :: encodeChars cs := by
        rw [encodeChars, List.flatMap_cons, encodeChar, if_pos hc]
        rfl
      rw [he, decodeFrom, if_pos hlt, ih, hb, Char.ofNat_toNat]
      rfl
    · obtain ⟨a, begun, tail, he, hlead, hcomp⟩ := exists_completes (Nat.not_lt.1 hc)
      have hbounds := lead?_bounds hlead
      have ha : ¬ a < 0x80 := by
        simp only [UInt8.lt_iff_toNat_lt, UInt8.reduceToNat]
        omega
      rw [encodeChars, List.flatMap_cons, he, List.cons_append, decodeFrom, if_neg ha, hlead]
      exact decodeFrom_begun_iff.2 ⟨tail, encodeChars cs, c, cs, hcomp, rfl, rfl, ih _⟩

theorem decode_eq_ok_iff {bytes : Bytes} {s : String} :
    decode bytes = .ok s ↔ encode s = bytes := by
  constructor
  · intro h
    obtain ⟨cs, hcs, rfl⟩ := Except.map_eq_ok_iff.1 h
    rw [encode, String.toList_ofList]
    exact encodeChars_of_decodeFrom hcs
  · intro h
    subst h
    exact Except.map_eq_ok_iff.2 ⟨s.toList, decodeFrom_encodeChars 0 _, String.ofList_toList⟩

end ValidatorClient.Text.Utf8
