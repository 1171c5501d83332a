import ValidatorClient.Text.Numeral

namespace ValidatorClient.Text.Numeral

variable {limit n m : Nat} {s : String} {cs : List Char}

/-- One digit or more that are this number. Some in front may be zeros. -/
def IsDecimal (digits : List Char) (n : Nat) : Prop :=
  digits ≠ [] ∧ (∀ c ∈ digits, c.isDigit = true) ∧ Nat.ofDigitChars 10 digits 0 = n

/-- The digits of a number, with a plus sign in front or without. -/
def Denotes (s : String) (n : Nat) : Prop :=
  ∃ digits, (s.toList = digits ∨ s.toList = '+' :: digits) ∧ IsDecimal digits n

theorem isDecimal_toDigits (n : Nat) : IsDecimal (Nat.toDigits 10 n) n :=
  ⟨Nat.toDigits_ne_nil, fun _ hc ↦ Nat.isDigit_of_mem_toDigits (by decide) (by decide) hc,
    Nat.ofDigitChars_ten_toDigits⟩

theorem eq_zero_of_head?_toDigits (h : (Nat.toDigits 10 n).head? = some '0') : n = 0 := by
  induction n using Nat.strongRecOn with
  | ind n ih =>
    by_cases hlt : n < 10
    · rw [Nat.toDigits_of_lt_base hlt] at h
      exact Nat.digitChar_eq_zero.1 (Option.some.inj h)
    · obtain ⟨c, cs, hcs⟩ :=
        List.exists_cons_of_ne_nil (Nat.toDigits_ne_nil (n := n / 10) (b := 10))
      rw [Nat.toDigits_of_base_le (by decide) (Nat.not_lt.1 hlt), hcs] at h
      have hdiv := ih (n / 10) (by omega) (by rw [hcs]; exact h)
      omega

theorem ofDigitChars_cons (c : Char) (cs : List Char) (n : Nat) :
    Nat.ofDigitChars 10 (c :: cs) n = Nat.ofDigitChars 10 cs (10 * n + (c.toNat - 0x30)) :=
      Nat.ofDigitChars_cons

theorem le_ofDigitChars (n : Nat) (cs : List Char) : n ≤ Nat.ofDigitChars 10 cs n := by
  induction cs generalizing n with
  | nil => simp
  | cons c cs ih =>
    have h := ih (10 * n + (c.toNat - 0x30))
    rw [ofDigitChars_cons]
    omega

/-- The number only grows from digit to digit, so that one which is ever too large stays so. -/
theorem digits_eq_ok_iff (h : n < limit) :
    digits limit n cs = .ok m ↔ (∀ c ∈ cs, c.isDigit = true) ∧ Nat.ofDigitChars 10 cs n = m ∧
      m < limit := by
  induction cs generalizing n with
  | nil =>
    rw [digits, Nat.ofDigitChars_nil]
    constructor
    · intro hn
      cases hn
      exact ⟨nofun, rfl, h⟩
    · intro hn
      rw [hn.2.1]
  | cons c cs ih =>
    rw [digits, List.forall_mem_cons, ofDigitChars_cons]
    by_cases hc : c.isDigit = true
    · rw [if_pos hc]
      dsimp only
      by_cases hlt : 10 * n + (c.toNat - 0x30) < limit
      · rw [if_pos hlt, ih hlt, and_iff_right hc]
      · have hle := le_ofDigitChars (10 * n + (c.toNat - 0x30)) cs
        rw [if_neg hlt]
        constructor
        · intro h
          cases h
        · intro h
          omega
    · simp [hc]

theorem denotes_plus_iff (h : s.toList = '+' :: cs) : Denotes s n ↔ IsDecimal cs n := by
  constructor
  · intro hn
    obtain ⟨digits, hs, hne, hall, hvalue⟩ := hn
    rw [h] at hs
    rcases hs with rfl | hs
    · cases hall '+' List.mem_cons_self
    · cases hs
      exact ⟨hne, hall, hvalue⟩
  · exact fun hn ↦ ⟨cs, .inr h, hn⟩

theorem denotes_iff_of_ne_plus (h : ∀ cs, s.toList ≠ '+' :: cs) :
    Denotes s n ↔ IsDecimal s.toList n := by
  constructor
  · intro hn
    obtain ⟨digits, hs, hn⟩ := hn
    rcases hs with rfl | hs
    · exact hn
    · exact absurd hs (h digits)
  · exact fun hn ↦ ⟨s.toList, .inl rfl, hn⟩

theorem parse_eq_ok_iff (h : 0 < limit) : parse limit s = .ok n ↔ Denotes s n ∧ n < limit := by
  have hnil : ¬ IsDecimal [] n := fun hn ↦ hn.1 rfl
  have hdigits {cs : List Char} (hcs : cs ≠ []) :
      digits limit 0 cs = .ok n ↔ IsDecimal cs n ∧ n < limit := by
    rw [digits_eq_ok_iff h, IsDecimal, and_iff_right hcs, and_assoc]
  unfold parse
  split
  case h_1 hs =>
    rw [denotes_iff_of_ne_plus (by simp [hs]), hs]
    simp [hnil]
  case h_2 hs =>
    rw [denotes_plus_iff hs]
    simp [hnil]
  case h_3 hne hs => rw [denotes_plus_iff hs, hdigits fun hcs ↦ hne (by rw [hcs])]
  case h_4 hne _ hplus => rw [denotes_iff_of_ne_plus hplus, hdigits hne]

end ValidatorClient.Text.Numeral
