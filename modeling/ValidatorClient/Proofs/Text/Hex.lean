import ValidatorClient.Proofs.Except
import ValidatorClient.Proofs.Text.Letters
import ValidatorClient.Text.Hex

namespace ValidatorClient.Text.Hex

variable {text : String} {bytes encoded : Bytes} {b : UInt8} {position n : Nat}

def digitByte (n : Nat) : UInt8 := UInt8.ofNat (digit n).toNat

def byteDigits (b : UInt8) : Bytes := [digitByte (b.toNat / 16), digitByte (b.toNat % 16)]

theorem digitValue?_ofNat : ∀ n < 256, ∀ d < 16,
    digitValue? (UInt8.ofNat n) = some d ↔ Utf8.smallLetter (UInt8.ofNat n) = digitByte d := by
  decide +kernel

theorem digitValue?_lt : ∀ n < 256, ∀ d ∈ digitValue? (UInt8.ofNat n), d < 16 := by
  decide +kernel

theorem digitValue?_eq_some_iff :
    digitValue? b = some n ↔ n < 16 ∧ Utf8.smallLetter b = digitByte n := by
  have hb : UInt8.ofNat b.toNat = b := UInt8.ofNat_toNat
  constructor
  · intro h
    have hlt := digitValue?_lt b.toNat b.toNat_lt n (by rwa [hb])
    have hiff := digitValue?_ofNat b.toNat b.toNat_lt n hlt
    rw [hb] at hiff
    exact ⟨hlt, hiff.1 h⟩
  · intro h
    have hiff := digitValue?_ofNat b.toNat b.toNat_lt n h.1
    rw [hb] at hiff
    exact hiff.2 h.2

theorem digits_of_byte {high low : UInt8} :
    (∃ h l, digitValue? high = some h ∧ digitValue? low = some l ∧
      UInt8.ofNat (16 * h + l) = b) ↔ [high, low].map Utf8.smallLetter = byteDigits b := by
  have hlt := b.toNat_lt
  simp only [digitValue?_eq_some_iff, byteDigits, List.map_cons, List.map_nil,
    List.cons.injEq, and_true]
  constructor
  · rintro ⟨h, l, ⟨hh, hhigh⟩, ⟨hl, hlow⟩, rfl⟩
    have hbyte : (UInt8.ofNat (16 * h + l)).toNat = 16 * h + l :=
      UInt8.toNat_ofNat_of_lt' (by rw [UInt8.size]; omega)
    have hdiv : (16 * h + l) / 16 = h := by omega
    have hmod : (16 * h + l) % 16 = l := by omega
    rw [hbyte, hdiv, hmod]
    exact ⟨hhigh, hlow⟩
  · rintro ⟨hhigh, hlow⟩
    refine ⟨b.toNat / 16, b.toNat % 16, ⟨by omega, hhigh⟩, ⟨by omega, hlow⟩, ?_⟩
    rw [Nat.div_add_mod, UInt8.ofNat_toNat]

theorem decodePairs_cons_eq_ok_iff {high low : UInt8} {rest : Bytes} :
    decodePairs position (high :: low :: rest) = .ok bytes ↔
      ∃ (b : UInt8) (more : Bytes), bytes = b :: more ∧
      [high, low].map Utf8.smallLetter = byteDigits b ∧
        decodePairs (position + 2) rest = .ok more := by
  simp only [← digits_of_byte]
  rw [decodePairs]
  cases digitValue? high with
  | none => simp
  | some h =>
    cases digitValue? low with
    | none => simp
    | some l =>
      dsimp only
      rw [Except.bind_eq_ok_iff]
      constructor
      · intro hrest
        obtain ⟨more, hmore, hbytes⟩ := hrest
        cases hbytes
        exact ⟨_, more, rfl, ⟨h, l, rfl, rfl, rfl⟩, hmore⟩
      · intro hrest
        obtain ⟨b, more, rfl, ⟨h', l', hh, hl, rfl⟩, hmore⟩ := hrest
        cases hh
        cases hl
        exact ⟨more, hmore, rfl⟩

theorem decodePairs_eq_ok_iff {position : Nat} {encoded bytes : Bytes}
    (heven : encoded.length % 2 = 0) :
    decodePairs position encoded = .ok bytes ↔
      encoded.map Utf8.smallLetter = bytes.flatMap byteDigits := by
  match encoded with
  | [] =>
    have hnil : decodePairs position [] = .ok [] := rfl
    cases bytes <;> simp [hnil, byteDigits]
  | [_] => cases heven
  | high :: low :: rest =>
    have hrest : rest.length % 2 = 0 := by
      rw [List.length_cons, List.length_cons] at heven
      omega
    simp only [decodePairs_cons_eq_ok_iff, decodePairs_eq_ok_iff hrest]
    cases bytes with
    | nil => simp
    | cons b bytes => simp [byteDigits, and_assoc]

theorem length_flatMap_byteDigits (bytes : Bytes) :
    (bytes.flatMap byteDigits).length = 2 * bytes.length := by
  induction bytes with
  | nil => rfl
  | cons b bytes ih =>
    rw [List.flatMap_cons, List.length_append, ih, List.length_cons]
    simp only [byteDigits, List.length_cons, List.length_nil]
    omega

theorem decode_eq_ok_iff :
    decode encoded = .ok bytes ↔ encoded.map Utf8.smallLetter = bytes.flatMap byteDigits := by
  unfold decode
  by_cases hodd : encoded.length % 2 = 1
  · rw [if_pos hodd]
    refine ⟨nofun, fun h ↦ ?_⟩
    have hlength := congrArg List.length h
    rw [List.length_map, length_flatMap_byteDigits] at hlength
    omega
  · rw [if_neg hodd, decodePairs_eq_ok_iff (by omega)]

theorem toNat_digit : ∀ n < 16, (digit n).toNat < 0x80 := by
  decide

theorem encode_encode (bytes : Bytes) : Utf8.encode (encode bytes) = bytes.flatMap byteDigits := by
  have hdigit {n : Nat} (h : n < 16) : Utf8.encodeChar (digit n) = [digitByte n] :=
    Utf8.encodeChar_of_lt (toNat_digit n h)
  rw [Utf8.encode, encode, String.toList_ofList, Utf8.encodeChars, List.flatMap_assoc]
  refine List.flatMap_congr fun b _ ↦ ?_
  have hlt := b.toNat_lt
  rw [List.flatMap_cons, List.flatMap_singleton, hdigit (by omega), hdigit (by omega)]
  rfl

theorem decode_encode_eq_ok_iff :
    decode (Utf8.encode text) = .ok bytes ↔ text.toLower = encode bytes := by
  have hmarks : ∀ c ∈ (encode bytes).toList, c.toNat < 0x80 := by
    intro c hc
    rw [encode, String.toList_ofList, List.mem_flatMap] at hc
    obtain ⟨b, -, hc⟩ := hc
    have hlt := b.toNat_lt
    rw [List.mem_pair] at hc
    rcases hc with rfl | rfl
    · exact toNat_digit _ (by omega)
    · exact toNat_digit _ (by omega)
  have hmark := @Utf8.exists_mark_iff text.toList _ [] hmarks
  rw [decode_eq_ok_iff, ← encode_encode, ← String.toList_inj, Utf8.toList_toLower]
  simpa [Utf8.encodeChars, Utf8.encode] using hmark.symm

theorem smallLetter_digitByte : ∀ n < 16, Utf8.smallLetter (digitByte n) = digitByte n := by
  decide

theorem decode_encode (bytes : Bytes) : decode (Utf8.encode (encode bytes)) = .ok bytes := by
  rw [decode_eq_ok_iff, encode_encode, List.map_flatMap]
  refine List.flatMap_congr fun b _ ↦ ?_
  have hlt := b.toNat_lt
  have hhigh := smallLetter_digitByte (b.toNat / 16) (by omega)
  have hlow := smallLetter_digitByte (b.toNat % 16) (by omega)
  rw [byteDigits, List.map_cons, List.map_singleton, hhigh, hlow]

end ValidatorClient.Text.Hex
