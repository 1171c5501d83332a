import Mathlib.Data.List.TakeWhile
import Mathlib.Data.Nat.Digits.Lemmas
import ValidatorClient.Proofs.Except
import ValidatorClient.Text.Base58

namespace ValidatorClient.Text.Base58

variable {base base' n k : Nat} {digits ds : List Nat} {bytes : Bytes} {s : String}

theorem digitsOf_eq (hbase : 1 < base) (hn : n < base ^ k) :
    digitsOf base k n = Nat.digits base n := by
  induction k generalizing n with
  | zero =>
    rw [Nat.pow_zero, Nat.lt_one_iff] at hn
    rw [hn, Nat.digits_zero, digitsOf]
  | succ k ih =>
    rw [digitsOf]
    by_cases h : n = 0
    · rw [if_pos h, h, Nat.digits_zero]
    · have hdiv : n / base < base ^ k := Nat.div_lt_of_lt_mul (by rwa [← Nat.pow_succ'])
      rw [if_neg h, ih hdiv, Nat.digits_def' hbase (Nat.pos_of_ne_zero h)]

theorem foldl_eq_ofDigits (digits : List Nat) :
    digits.foldl (fun n d ↦ base * n + d) 0 = Nat.ofDigits base digits.reverse := by
  rw [Nat.ofDigits_eq_foldr, List.foldr_reverse]
  simp only [Nat.cast_id, Nat.add_comm]

/-- The digits of the same number in another base, behind the same zeros. -/
def convert (base base' : Nat) (digits : List Nat) : List Nat :=
  digits.takeWhile (· = 0) ++ (Nat.digits base' (Nat.ofDigits base digits.reverse)).reverse

theorem exists_zeros (digits : List Nat) :
    ∃ zeros rest, digits = List.replicate zeros 0 ++ rest ∧ rest.head? ≠ some 0 := by
  induction digits with
  | nil => exact ⟨0, [], rfl, nofun⟩
  | cons d digits ih =>
    by_cases h : d = 0
    · obtain ⟨zeros, rest, rfl, hrest⟩ := ih
      exact ⟨zeros + 1, rest, by rw [h, List.replicate_succ, List.cons_append], hrest⟩
    · exact ⟨0, d :: digits, rfl, by simpa using h⟩

theorem convert_zeros (zeros : Nat) {rest : List Nat} (hrest : rest.head? ≠ some 0) :
    convert base base' (List.replicate zeros 0 ++ rest) =
      List.replicate zeros 0 ++ (Nat.digits base' (Nat.ofDigits base rest.reverse)).reverse := by
  have htake : (List.replicate zeros 0 ++ rest).takeWhile (· = 0) = List.replicate zeros 0 := by
    rw [List.takeWhile_append_of_pos (by simp)]
    cases rest with
    | nil => simp
    | cons d rest =>
      have hd : d ≠ 0 := by simpa using hrest
      simp [hd]
  rw [convert, htake, List.reverse_append, List.reverse_replicate,
    Nat.ofDigits_append_replicate_zero]

theorem head?_reverse_digits : (Nat.digits base n).reverse.head? ≠ some 0 := by
  rw [List.head?_reverse]
  intro h
  by_cases hn : n = 0
  · rw [hn, Nat.digits_zero] at h
    cases h
  · rw [List.getLast?_eq_some_getLast (Nat.digits_ne_nil_iff_ne_zero.2 hn)] at h
    exact Nat.getLast_digit_ne_zero base hn (Option.some.inj h)

theorem convert_convert (hbase : 1 < base) (hdigits : ∀ d ∈ digits, d < base) :
    convert base' base (convert base base' digits) = digits := by
  obtain ⟨zeros, rest, rfl, hrest⟩ := exists_zeros digits
  have hdigits' : Nat.digits base (Nat.ofDigits base rest.reverse) = rest.reverse := by
    refine Nat.digits_ofDigits base hbase _ (fun d hd ↦ hdigits d ?_) fun h hlast ↦ hrest ?_
    · exact List.mem_append_right _ (List.mem_reverse.1 hd)
    · rw [← List.getLast?_reverse, List.getLast?_eq_some_getLast h, hlast]
  rw [convert_zeros zeros hrest, convert_zeros zeros head?_reverse_digits, List.reverse_reverse,
    Nat.ofDigits_digits, hdigits', List.reverse_reverse]

theorem lt_of_mem_convert (hbase : 1 < base') {d : Nat} (hd : d ∈ convert base base' digits) :
    d < base' := by
  rw [convert, List.mem_append, List.mem_reverse] at hd
  rcases hd with hd | hd
  · have hzero := List.mem_takeWhile_imp (p := fun d ↦ decide (d = 0)) hd
    rw [of_decide_eq_true hzero]
    omega
  · exact Nat.digits_lt_base hbase hd

def symbol (d : Nat) : Char := alphabet.getD d '1'

theorem length_alphabet : alphabet.length = 58 := by decide

theorem symbol_of_lt {d : Nat} (h : d < alphabet.length) : symbol d = alphabet[d] := by
  rw [symbol, List.getD_eq_getElem?_getD, List.getElem?_eq_getElem h, Option.getD_some]

theorem idxOf?_eq_some_iff {c : Char} {d : Nat} :
    alphabet.idxOf? c = some d ↔ d < 58 ∧ c = symbol d := by
  have hnodup : alphabet.Nodup := by decide
  rw [List.idxOf?_eq_some_iff, ← length_alphabet]
  constructor
  · intro h
    obtain ⟨hd, hc, -⟩ := h
    exact ⟨hd, by rw [symbol_of_lt hd, hc]⟩
  · intro h
    obtain ⟨hd, rfl⟩ := h
    rw [symbol_of_lt hd]
    exact ⟨hd, rfl, fun j hj hjd ↦ hj.ne (hnodup.getElem_inj_iff.1 hjd)⟩

theorem toNat_symbol_lt {d : Nat} (h : d < 58) : (symbol d).toNat < 0x80 := by
  have hall : alphabet.all (·.toNat < 0x80) = true := by decide
  rw [← length_alphabet] at h
  rw [symbol_of_lt h]
  exact of_decide_eq_true (List.all_eq_true.1 hall _ (List.getElem_mem h))

theorem digitValues_eq_ok_iff {position : Nat} {cs : List Char} :
    digitValues position cs = .ok ds ↔ (∀ d ∈ ds, d < 58) ∧ cs = ds.map symbol := by
  induction cs generalizing position ds with
  | nil =>
    rw [digitValues, eq_comm (a := []), List.map_eq_nil_iff]
    constructor
    · intro h
      cases h
      exact ⟨by simp, rfl⟩
    · intro h
      rw [h.2]
  | cons c cs ih =>
    rw [digitValues]
    constructor
    · intro h
      by_cases hascii : 0x80 ≤ c.toNat
      · rw [if_pos hascii] at h
        cases h
      rw [if_neg hascii] at h
      cases hc : alphabet.idxOf? c with
      | none =>
        rw [hc] at h
        cases h
      | some d =>
        rw [hc] at h
        obtain ⟨ds, hds, h⟩ := Except.bind_eq_ok_iff.1 h
        cases h
        obtain ⟨hd, rfl⟩ := idxOf?_eq_some_iff.1 hc
        obtain ⟨hlt, rfl⟩ := ih.1 hds
        exact ⟨List.forall_mem_cons.2 ⟨hd, hlt⟩, rfl⟩
    · intro h
      obtain ⟨hlt, h⟩ := h
      obtain ⟨d, ds, rfl, rfl, rfl⟩ := List.map_eq_cons_iff.1 h.symm
      obtain ⟨hd, hlt⟩ := List.forall_mem_cons.1 hlt
      rw [if_neg (Nat.not_le.2 (toNat_symbol_lt hd)), idxOf?_eq_some_iff.2 ⟨hd, rfl⟩]
      exact Except.bind_eq_ok_iff.2 ⟨ds, ih.2 ⟨hlt, rfl⟩, rfl⟩

theorem ofBigEndian_eq (bytes : Bytes) :
    Bytes.ofBigEndian bytes = Nat.ofDigits 256 (bytes.map UInt8.toNat).reverse := by
  rw [← foldl_eq_ofDigits, List.foldl_map]
  rfl

theorem ofDigits_lt {digits : List Nat} (hbase : 1 < base) (h : ∀ d ∈ digits, d < base) :
    Nat.ofDigits base digits.reverse < base ^ digits.length := by
  have hlt := Nat.ofDigits_lt_base_pow_length hbase fun d hd ↦ h d (List.mem_reverse.1 hd)
  rwa [List.length_reverse] at hlt

theorem toNat_lt_of_mem_map {d : Nat} (hd : d ∈ bytes.map UInt8.toNat) : d < 256 := by
  obtain ⟨b, -, rfl⟩ := List.mem_map.1 hd
  exact b.toNat_lt

/-- Two digits hold a byte, so there are enough places for all digits of the number. -/
theorem encode_eq (bytes : Bytes) :
    encode bytes = String.ofList ((convert 256 58 (bytes.map UInt8.toNat)).map symbol) := by
  have hlt : Bytes.ofBigEndian bytes < 58 ^ (2 * bytes.length) := by
    have h :
        Nat.ofDigits 256 (bytes.map UInt8.toNat).reverse < 256 ^ (bytes.map UInt8.toNat).length :=
      ofDigits_lt (by decide) fun d hd ↦ toNat_lt_of_mem_map hd
    rw [List.length_map] at h
    rw [ofBigEndian_eq, Nat.pow_mul]
    exact Nat.lt_of_lt_of_le h (Nat.pow_le_pow_left (by decide) _)
  have hzeros : (bytes.takeWhile (· = 0)).map (fun _ ↦ '1') =
      ((bytes.map UInt8.toNat).takeWhile (· = 0)).map symbol := by
    have hzero (b : UInt8) : decide (b.toNat = 0) = decide (b = 0) :=
      decide_eq_decide.2 ⟨fun h ↦ UInt8.toNat_inj.1 h, fun h ↦ by rw [h]; rfl⟩
    rw [List.takeWhile_map, List.map_map]
    simp only [Function.comp_def, hzero]
    refine List.map_congr_left fun b hb ↦ ?_
    have hb0 := List.mem_takeWhile_imp (p := fun b : UInt8 ↦ decide (b = 0)) hb
    rw [of_decide_eq_true hb0]
    rfl
  rw [encode, convert, hzeros, digitsOf_eq (by decide) hlt, ofBigEndian_eq, List.map_append]
  rfl

theorem decode_eq_ok_iff_convert :
    decode s = .ok bytes ↔ ∃ ds, (∀ d ∈ ds, d < 58) ∧ s = String.ofList (ds.map symbol) ∧
      (convert 58 256 ds).map UInt8.ofNat = bytes := by
  have hbytes {ds : List Nat} (hds : ∀ d ∈ ds, d < 58) :
      (ds.takeWhile (· = 0)).map (fun _ ↦ 0) ++
        (digitsOf 256 ds.length (ds.foldl (fun n d ↦ 58 * n + d) 0)).reverse.map UInt8.ofNat =
      (convert 58 256 ds).map UInt8.ofNat := by
    have hlt :=
      Nat.lt_of_lt_of_le (ofDigits_lt (by decide) hds)
        (Nat.pow_le_pow_left (by decide : 58 ≤ 256) _)
    rw [foldl_eq_ofDigits, digitsOf_eq (by decide) hlt, convert, List.map_append]
    refine congrArg (· ++ _) (List.map_congr_left fun d hd ↦ ?_)
    have hzero := List.mem_takeWhile_imp (p := fun d ↦ decide (d = 0)) hd
    rw [of_decide_eq_true hzero]
    rfl
  rw [decode, Except.bind_eq_ok_iff]
  constructor
  · intro h
    obtain ⟨ds, hds, h⟩ := h
    obtain ⟨hlt, htext⟩ := digitValues_eq_ok_iff.1 hds
    exact ⟨ds, hlt, by rw [← htext, String.ofList_toList],
      (hbytes hlt).symm.trans (Except.ok.inj h)⟩
  · intro h
    obtain ⟨ds, hlt, rfl, rfl⟩ := h
    exact ⟨ds, digitValues_eq_ok_iff.2 ⟨hlt, String.toList_ofList⟩, congrArg Except.ok (hbytes hlt)⟩

/-- Reading undoes writing, and no text but the one that is written is read as the bytes. -/
theorem decode_eq_ok_iff : decode s = .ok bytes ↔ s = encode bytes := by
  rw [decode_eq_ok_iff_convert, encode_eq]
  constructor
  · intro h
    obtain ⟨ds, hlt, rfl, rfl⟩ := h
    have hback : ((convert 58 256 ds).map UInt8.ofNat).map UInt8.toNat = convert 58 256 ds := by
      rw [List.map_map]
      refine (List.map_congr_left fun d hd ↦ ?_).trans (List.map_id _)
      exact UInt8.toNat_ofNat_of_lt' (lt_of_mem_convert (by decide) hd)
    rw [hback, convert_convert (by decide) hlt]
  · intro h
    have hback : (bytes.map UInt8.toNat).map UInt8.ofNat = bytes := by simp [Function.comp_def]
    refine ⟨_, fun d hd ↦ lt_of_mem_convert (by decide) hd, h, ?_⟩
    rw [convert_convert (by decide) fun d hd ↦ toNat_lt_of_mem_map hd, hback]

theorem decode_encode (bytes : Bytes) : decode (encode bytes) = .ok bytes := decode_eq_ok_iff.2 rfl

theorem encode_injective : Function.Injective encode := by
  intro bytes bytes' h
  exact Except.ok.inj ((decode_encode bytes).symm.trans (decode_eq_ok_iff.2 h))

theorem toList_encode_zeros (zeros : Nat) (bytes : Bytes) :
    (encode (List.replicate zeros 0 ++ bytes)).toList =
      List.replicate zeros '1' ++ (encode bytes).toList := by
  have hconvert (ds : List Nat) : convert 256 58 (0 :: ds) = 0 :: convert 256 58 ds := by
    simp [convert, Nat.ofDigits_append]
  induction zeros with
  | zero => rfl
  | succ zeros ih =>
    rw [encode_eq, String.toList_ofList] at ih ⊢
    rw [List.replicate_succ, List.cons_append, List.map_cons, UInt8.toNat_zero, hconvert,
      List.map_cons, ih]
    rfl

theorem exists_of_toList_encode {zeros : Nat}
    (h : (encode bytes).toList = List.replicate zeros '1' ++ s.toList) :
    ∃ bytes', bytes = List.replicate zeros 0 ++ bytes' ∧ s = encode bytes' := by
  have hs : ∃ bytes', decode s = .ok bytes' := by
    rw [encode_eq, String.toList_ofList, List.map_eq_append_iff] at h
    obtain ⟨ds, ds', hds, -, hs⟩ := h
    refine ⟨_,
      decode_eq_ok_iff_convert.2 ⟨ds', fun d hd ↦ ?_, by rw [hs, String.ofList_toList], rfl⟩⟩
    exact lt_of_mem_convert (by decide) (hds ▸ List.mem_append_right ds hd)
  obtain ⟨bytes', hs⟩ := hs
  obtain rfl := decode_eq_ok_iff.1 hs
  refine ⟨bytes', encode_injective (String.toList_inj.1 ?_), rfl⟩
  rw [toList_encode_zeros, h]

end ValidatorClient.Text.Base58
