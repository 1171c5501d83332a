import ValidatorClient.Proofs.Signer.Reference
import ValidatorClient.Signer.DerivationPath

namespace ValidatorClient.DerivationPath

open Text

variable {n m : UInt32} {p q : DerivationPath}

theorem or_two_pow {n : Nat} (h : n < 2 ^ 32) : n ||| 2 ^ 31 = n % 2 ^ 31 + 2 ^ 31 := by
  have hadd (b : Nat) (hb : b < 2 ^ 31) : 2 ^ 31 + b = 2 ^ 31 ||| b := by
    simpa using Nat.two_pow_add_eq_or_of_lt hb 1
  rcases Nat.lt_or_ge n (2 ^ 31) with hlt | hge
  · rw [Nat.mod_eq_of_lt hlt, Nat.or_comm, ← hadd n hlt, Nat.add_comm]
  · -- the bit is set already, and is not added once more
    have hn : n = 2 ^ 31 ||| (n - 2 ^ 31) := by
      rw [← hadd (n - 2 ^ 31) (by omega)]
      omega
    have hmod : n % 2 ^ 31 + 2 ^ 31 = n := by omega
    rw [hmod, hn, Nat.or_comm, ← Nat.or_assoc, Nat.or_self]

theorem toNat_harden (n : UInt32) : (harden n).toNat = n.toNat % 2 ^ 31 + 2 ^ 31 := by
  rw [harden, UInt32.toNat_or]
  exact or_two_pow n.toNat_lt

theorem components_toNat (p : DerivationPath) :
    p.components.map UInt32.toNat =
      [44 + 2 ^ 31, 501 + 2 ^ 31, p.slot.toNat % 2 ^ 31 + 2 ^ 31] := by
  simp only [components, List.map_cons, List.map_nil, toNat_harden]
  rfl

theorem components_eq_iff :
    p.components = q.components ↔ p.slot.toNat % 2 ^ 31 = q.slot.toNat % 2 ^ 31 := by
  rw [← (List.map_injective_iff.2 fun _ _ ↦ UInt32.toNat_inj.1).eq_iff, components_toNat,
    components_toNat]
  simp

theorem toString_eq (p : DerivationPath) :
    p.toString = "m/44'/501'/" ++ Nat.repr p.slot.toNat ++ "'" := by
  rfl

theorem toString_inj : p.toString = q.toString ↔ p = q := by
  constructor
  · intro h
    rw [toString_eq, toString_eq, String.append_left_inj, String.append_right_inj] at h
    have hslot := congrArg (fun s ↦ Nat.ofDigitChars 10 s.toList 0) h
    simp only [Nat.toList_repr, Nat.ofDigitChars_ten_toDigits] at hslot
    cases p
    cases q
    exact congrArg mk (UInt32.toNat_inj.1 hslot)
  · exact congrArg toString

theorem isBlank_of_isDigit {c : Char} (h : c.isDigit = true) : Blank.isBlank c = false := by
  have hdigit : 48 ≤ c.toNat ∧ c.toNat ≤ 57 := by
    simpa [Char.isDigit, UInt32.le_iff_toNat_le] using h
  rw [Blank.isBlank, Bool.eq_false_iff]
  simp only [Blank.codePoints, List.contains_eq_mem, List.mem_cons, List.not_mem_nil, or_false,
    ne_eq, decide_eq_true_eq]
  omega

theorem isTrimmed_reference (n : Nat) :
    Blank.IsTrimmed ("ledger://" ++ Nat.repr n) ("ledger://" ++ Nat.repr n) := by
  have htext :
      ("ledger://" ++ Nat.repr n).toList = SignerReference.deviceMark ++ Nat.toDigits 10 n := by
    rw [String.toList_append, Nat.toList_repr]
    rfl
  refine ⟨[], [], by simp, nofun, nofun, fun c hc ↦ ?_, fun c hc ↦ ?_⟩
  · rw [htext] at hc
    cases hc
    decide
  · rw [htext, List.getLast?_append_of_ne_nil _ Nat.toDigits_ne_nil] at hc
    exact isBlank_of_isDigit ((Numeral.isDecimal_toDigits n).2.1 c (List.mem_of_getLast? hc))

theorem parse_slot (n : UInt32) :
    SignerReference.parse ("ledger://" ++ Nat.repr n.toNat) = .ok (.device n) := by
  have hmark : SignerReference.IsMarked ("ledger://" ++ Nat.repr n.toNat) (Nat.repr n.toNat) :=
    ⟨"ledger://", SignerReference.toLower_eq_iff.2 rfl, rfl⟩
  exact SignerReference.parse_of_denotes (isTrimmed_reference n.toNat).trim_eq hmark
    ⟨_, .inl Nat.toList_repr, Numeral.isDecimal_toDigits n.toNat⟩

theorem third_component_iff :
    p.components[2]?.map UInt32.toNat = some (p.slot.toNat + 2 ^ 31) ↔ p.slot.toNat < 2 ^ 31 := by
  have hslot := p.slot.toNat_lt
  have hthird : p.components[2]? = some (harden p.slot) := rfl
  rw [hthird, Option.map_some, toNat_harden, Option.some.injEq]
  omega

/-- Every number of 32 bits is accepted as a slot, and the text of its path names this slot and no
other. As numbers the components tell two slots apart unless these differ by 2 ^ 31, and so any two
below that. The third is the slot with the top bit added for a slot below 2 ^ 31, and not from there
on. -/
theorem components_exact (p q : DerivationPath) :
    SignerReference.parse ("ledger://" ++ Nat.repr p.slot.toNat) = .ok (.device p.slot) ∧
    p.toString = "m/44'/501'/" ++ Nat.repr p.slot.toNat ++ "'" ∧
    (p.toString = q.toString ↔ p = q) ∧
    p.components.map UInt32.toNat = [44 + 2 ^ 31, 501 + 2 ^ 31, p.slot.toNat % 2 ^ 31 + 2 ^ 31] ∧
    (p.components[2]?.map UInt32.toNat = some (p.slot.toNat + 2 ^ 31) ↔ p.slot.toNat < 2 ^ 31) ∧
    (p.components = q.components ↔ p.slot.toNat % 2 ^ 31 = q.slot.toNat % 2 ^ 31) ∧
    (p.slot.toNat < 2 ^ 31 → q.slot.toNat < 2 ^ 31 → p ≠ q → p.components ≠ q.components) := by
  refine ⟨parse_slot p.slot, p.toString_eq, toString_inj, p.components_toNat, third_component_iff,
    components_eq_iff, fun hp hq hne heq ↦ hne ?_⟩
  rw [components_eq_iff, Nat.mod_eq_of_lt hp, Nat.mod_eq_of_lt hq, UInt32.toNat_inj] at heq
  cases p
  cases q
  exact congrArg mk heq

/-- Two slots of which a device would take the same key. -/
theorem components_clash :
    SignerReference.parse "ledger://0" = .ok (.device 0) ∧
    SignerReference.parse "ledger://2147483648" = .ok (.device 2147483648) ∧
    (0 : UInt32) ≠ 2147483648 ∧
    (mk 0).components = (mk 2147483648).components ∧
    (mk 2147483648).components[2]?.map UInt32.toNat ≠ some (2147483648 + 2 ^ 31) ∧
    (mk 2147483648).toString = "m/44'/501'/2147483648'" := by
  decide +kernel

end ValidatorClient.DerivationPath
