import ValidatorClient.Proofs.Text.Utf8

namespace ValidatorClient.Text.Utf8

variable {c m : Char} {cs marks rest : List Char}

def smallLetter (b : UInt8) : UInt8 := if 0x41 ≤ b ∧ b ≤ 0x5A then b + 0x20 else b

theorem smallLetter_ofNat :
    ∀ n < 0x80, smallLetter (UInt8.ofNat n) = UInt8.ofNat (Char.ofNat n).toLower.toNat ∧
    (Char.ofNat n).toLower.toNat < 0x80 := by
  decide

theorem smallLetter_of_le {b : UInt8} (h : 0x80 ≤ b.toNat) : smallLetter b = b := by
  rw [smallLetter, if_neg]
  simp only [UInt8.le_iff_toNat_le, UInt8.reduceToNat]
  omega

theorem toList_toLower (s : String) : s.toLower.toList = s.toList.map Char.toLower :=
  String.toList_map

theorem toNat_toLower (c : Char) :
    c.toLower.toNat = if 65 ≤ c.toNat ∧ c.toNat ≤ 90 then c.toNat + 32 else c.toNat := by
  have hcapital : (c.val ≥ 'A'.val ∧ c.val ≤ 'Z'.val) ↔ 65 ≤ c.toNat ∧ c.toNat ≤ 90 := by
    simp only [ge_iff_le, UInt32.le_iff_toNat_le]
    rfl
  by_cases h : 65 ≤ c.toNat ∧ c.toNat ≤ 90
  · rw [if_pos h]
    refine (congrArg Char.toNat (dif_pos (hcapital.2 h))).trans ?_
    refine (UInt32.toNat_add c.val 32).trans (Nat.mod_eq_of_lt ?_)
    change c.toNat + 32 < 2 ^ 32
    omega
  · have hlower : c.toLower = c := dif_neg (mt hcapital.1 h)
    rw [hlower, if_neg h]

theorem toLower_of_le (h : 0x80 ≤ c.toNat) : c.toLower = c := by
  rw [← Char.toNat_inj, toNat_toLower, if_neg]
  omega

theorem toNat_toUpper (c : Char) :
    c.toUpper.toNat = if 97 ≤ c.toNat ∧ c.toNat ≤ 122 then c.toNat - 32 else c.toNat := by
  have hsmall : ('a'.val ≤ c.val ∧ c.val ≤ 'z'.val) ↔ 97 ≤ c.toNat ∧ c.toNat ≤ 122 := by
    simp only [UInt32.le_iff_toNat_le]
    rfl
  by_cases h : 97 ≤ c.toNat ∧ c.toNat ≤ 122
  · -- to subtract 32 is to add what is left of a word
    have hword : ('A'.val - 'a'.val).toNat = 2 ^ 32 - 32 := by decide
    rw [if_pos h]
    refine (congrArg Char.toNat (dif_pos (hsmall.2 h))).trans ?_
    refine (UInt32.toNat_add c.val ('A'.val - 'a'.val)).trans ?_
    rw [hword]
    change (c.toNat + (2 ^ 32 - 32)) % 2 ^ 32 = _
    omega
  · have hupper : c.toUpper = c := dif_neg (mt hsmall.1 h)
    rw [hupper, if_neg h]

theorem toLower_eq_iff {a b : Char} (h : b.toNat < 65 ∨ 90 < b.toNat) :
    a.toLower = b ↔ a = b ∨ a = b.toUpper := by
  rw [← Char.toNat_inj, ← Char.toNat_inj, ← Char.toNat_inj, toNat_toLower, toNat_toUpper]
  split <;> split <;> omega

theorem encodeChar_of_lt (h : c.toNat < 0x80) : encodeChar c = [UInt8.ofNat c.toNat] := by
  rw [encodeChar, if_pos h]

theorem exists_encodeChar (c : Char) :
    ∃ b bs, encodeChar c = b :: bs ∧ (0x80 ≤ c.toNat → 0x80 ≤ b.toNat) := by
  by_cases h : c.toNat < 0x80
  · exact ⟨_, [], encodeChar_of_lt h, by omega⟩
  · obtain ⟨b, begun, tail, hc, hlead, -⟩ := exists_completes (Nat.not_lt.1 h)
    have hb := lead?_bounds hlead
    exact ⟨b, tail, hc, by omega⟩

theorem encodeChars_injective : Function.Injective encodeChars := by
  intro cs cs' h
  have hcs := decodeFrom_encodeChars 0 cs
  rw [h, decodeFrom_encodeChars] at hcs
  exact (Except.ok.inj hcs).symm

theorem smallLetter_of_lt (h : c.toNat < 0x80) :
    smallLetter (UInt8.ofNat c.toNat) = UInt8.ofNat c.toLower.toNat ∧ c.toLower.toNat < 0x80 := by
  have hsmall := smallLetter_ofNat c.toNat h
  rwa [Char.ofNat_toNat] at hsmall

theorem toNat_lt_of_toLower (h : c.toLower.toNat < 0x80) : c.toNat < 0x80 := by
  by_contra hc
  rw [toLower_of_le (by omega)] at h
  omega

theorem toLower_of_smallLetter {b : UInt8} {bs : Bytes} (hm : m.toNat < 0x80)
    (hc : encodeChar c = b :: bs) (hb : smallLetter b = UInt8.ofNat m.toNat) :
    bs = [] ∧ c.toLower = m := by
  have hmbyte := toNat_ofNat_byte (n := m.toNat) (by omega)
  by_cases hlt : c.toNat < 0x80
  · rw [encodeChar_of_lt hlt] at hc
    cases hc
    obtain ⟨hsmall, hlower⟩ := smallLetter_of_lt hlt
    have hbytes := congrArg UInt8.toNat (hsmall.symm.trans hb)
    rw [toNat_ofNat_byte (by omega), hmbyte] at hbytes
    exact ⟨rfl, Char.toNat_inj.1 hbytes⟩
  · obtain ⟨b', bs', hc', hle⟩ := exists_encodeChar c
    cases hc.symm.trans hc'
    have hle := hle (Nat.not_lt.1 hlt)
    rw [smallLetter_of_le hle] at hb
    rw [hb, hmbyte] at hle
    omega

/-- The same beginning is found in the characters and in the bytes, if it has only letters of one
byte. -/
theorem exists_mark_iff (hmarks : ∀ m ∈ marks, m.toNat < 0x80) :
    (∃ mark, mark.map Char.toLower = marks ∧ cs = mark ++ rest) ↔
      ∃ head, head.map smallLetter = encodeChars marks ∧
        encodeChars cs = head ++ encodeChars rest := by
  have hcons (c : Char) (cs : List Char) : encodeChars (c :: cs) = encodeChar c ++ encodeChars cs :=
    List.flatMap_cons
  -- each mark is one character and one byte, so that both beginnings grow in step
  induction marks generalizing cs with
  | nil =>
    have hnil : encodeChars [] = [] := rfl
    simp [hnil, encodeChars_injective.eq_iff]
  | cons m marks ih =>
    obtain ⟨hm, htail⟩ := List.forall_mem_cons.1 hmarks
    rw [hcons, encodeChar_of_lt hm]
    constructor
    · intro h
      obtain ⟨mark, hmark, rfl⟩ := h
      obtain ⟨c, mark, rfl, rfl, rfl⟩ := List.map_eq_cons_iff.1 hmark
      have hc := toNat_lt_of_toLower hm
      obtain ⟨head, hhead, hbytes⟩ := (ih htail).1 ⟨mark, rfl, rfl⟩
      refine ⟨UInt8.ofNat c.toNat :: head, ?_, ?_⟩
      · rw [List.map_cons, (smallLetter_of_lt hc).1, hhead]
        rfl
      · rw [List.cons_append, hcons, encodeChar_of_lt hc, hbytes]
        rfl
    · intro h
      obtain ⟨head, hmap, hbytes⟩ := h
      obtain ⟨b, head, rfl, hb, hhead⟩ := List.map_eq_cons_iff.1 hmap
      cases cs with
      | nil => cases hbytes
      | cons c cs =>
        obtain ⟨b', bs, hc, -⟩ := exists_encodeChar c
        rw [hcons, hc, List.cons_append, List.cons_append, List.cons.injEq] at hbytes
        obtain ⟨rfl, hbytes⟩ := hbytes
        obtain ⟨rfl, hlower⟩ := toLower_of_smallLetter hm hc hb
        obtain ⟨mark, hmark, rfl⟩ := (ih htail).2 ⟨head, hhead, hbytes⟩
        exact ⟨c :: mark, by rw [List.map_cons, hlower, hmark], rfl⟩

end ValidatorClient.Text.Utf8
