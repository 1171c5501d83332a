import ValidatorClient.Proofs.Ledger.CompactCount

namespace ValidatorClient.Ledger

namespace CompactCount

def Opens (raw : Bytes) (count length : Nat) : Prop :=
  ∃ spelling rest, raw.take 3 = spelling ++ rest ∧ spelling.length = length ∧
    Spells count spelling ∧ count < 0x10000

variable {raw : Bytes} {count : UInt16} {n length : Nat}

theorem opens_iff : Opens raw n length ↔ Begins 3 raw n length ∧ n < 0x10000 := by
  constructor
  · rintro ⟨spelling, rest, hraw, hlength, h, hlt⟩
    refine ⟨⟨spelling, rest ++ raw.drop 3, ?_, ?_, h, hlength⟩, hlt⟩
    · rw [← List.append_assoc, ← hraw, List.take_append_drop]
    · have htake := List.length_take_le 3 raw
      rw [hraw, List.length_append] at htake
      omega
  · rintro ⟨⟨spelling, rest, rfl, hle, h, hlength⟩, hlt⟩
    refine ⟨spelling, rest.take (3 - spelling.length), ?_, hlength, h, hlt⟩
    rw [List.take_append, List.take_of_length_le hle]

theorem opens_take_iff : Opens (raw.take 3) n length ↔ Opens raw n length := by
  unfold Opens
  rw [List.take_take, Nat.min_self]

theorem decode_eq_ok_iff_opens :
    decode raw = .ok (count, length) ↔ Opens raw count.toNat length := by
  rw [decode_eq_ok_iff, opens_iff]
  simp [count.toNat_lt]

theorem Opens.toNat_ofNat (h : Opens raw n length) : (UInt16.ofNat n).toNat = n := by
  obtain ⟨_, _, _, _, _, hlt⟩ := h
  exact UInt16.toNat_ofNat_of_lt' hlt

theorem Opens.decode_eq (h : Opens raw n length) : decode raw = .ok (UInt16.ofNat n, length) := by
  rw [decode_eq_ok_iff_opens, h.toNat_ofNat]
  exact h

theorem Opens.length_le (h : Opens raw n length) : length ≤ raw.length := by
  obtain ⟨⟨spelling, rest, rfl, -, -, rfl⟩, -⟩ := opens_iff.1 h
  rw [List.length_append]
  omega

end CompactCount

namespace Wire

open CompactCount (Spells IsPadded Opens)

variable {signatures : List Signature} {message bytes raw : Bytes} {n : Nat}

theorem length_flatMap_signatures (signatures : List Signature) :
    (signatures.flatMap (·.toList)).length = 64 * signatures.length := by
  induction signatures with
  | nil => rfl
  | cons signature signatures ih =>
    rw [List.flatMap_cons, List.length_append, signature.length_eq, ih, List.length_cons]
    omega

theorem takeSignatures_eq_some_iff : takeSignatures n bytes = some (signatures, message) ↔
    signatures.length = n ∧ bytes = signatures.flatMap (·.toList) ++ message := by
  constructor
  · intro h
    induction n generalizing bytes signatures with
    | zero =>
      cases h
      exact ⟨rfl, rfl⟩
    | succ n ih =>
      obtain ⟨signature, hsignature, h⟩ := Option.bind_eq_some_iff.1 h
      obtain ⟨⟨rest, message'⟩, hrest, h⟩ := Option.bind_eq_some_iff.1 h
      cases h
      obtain ⟨hlength, hbytes⟩ := ih hrest
      refine ⟨by rw [List.length_cons, hlength], ?_⟩
      rw [List.flatMap_cons, List.append_assoc, ← hbytes,
        FixedBytes.ofList?_eq_some_iff.1 hsignature, List.take_append_drop]
  · rintro ⟨rfl, rfl⟩
    exact takeSignatures_flatMap signatures message

theorem exists_takeSignatures_iff :
    (∃ parts, takeSignatures n bytes = some parts) ↔ 64 * n ≤ bytes.length := by
  constructor
  · rintro ⟨⟨signatures, message⟩, h⟩
    obtain ⟨rfl, rfl⟩ := takeSignatures_eq_some_iff.1 h
    rw [List.length_append, length_flatMap_signatures]
    omega
  · intro h
    induction n generalizing bytes with
    | zero => exact ⟨_, rfl⟩
    | succ n ih =>
      have hfirst : (bytes.take 64).length = 64 := by
        rw [List.length_take]
        omega
      have hlast : 64 * n ≤ (bytes.drop 64).length := by
        rw [List.length_drop]
        omega
      obtain ⟨⟨signatures, message⟩, hrest⟩ := ih hlast
      refine ⟨(⟨bytes.take 64, hfirst⟩ :: signatures, message), ?_⟩
      simp [takeSignatures, FixedBytes.ofList?, hfirst, hrest]

theorem split_of_decode {count : UInt16} {length : Nat}
    (h : CompactCount.decode raw = .ok (count, length)) :
    split raw = (takeSignatures count.toNat (raw.drop length)).elim
      (.error (.format .signaturesCutOff)) .ok := by
  rw [split, h]
  dsimp only
  cases takeSignatures count.toNat (raw.drop length) <;> rfl

theorem split_of_decode_error {fault : FormatFault} (h : CompactCount.decode raw = .error fault) :
    split raw = .error (.format fault) := by
  rw [split, h]

theorem split_eq_ok_iff_take {parts : List Signature × Bytes} : split raw = .ok parts ↔
    ∃ n length, Opens raw n length ∧ takeSignatures n (raw.drop length) = some parts := by
  constructor
  · intro h
    cases hdecode : CompactCount.decode raw with
    | error fault =>
      rw [split_of_decode_error hdecode] at h
      cases h
    | ok found =>
      obtain ⟨count, length⟩ := found
      refine ⟨count.toNat, length, CompactCount.decode_eq_ok_iff_opens.1 hdecode, ?_⟩
      rw [split_of_decode hdecode] at h
      cases htake : takeSignatures count.toNat (raw.drop length) with
      | none => simp [htake] at h
      | some parts' => simpa [htake] using h
  · rintro ⟨n, length, hopens, htake⟩
    rw [split_of_decode hopens.decode_eq, hopens.toNat_ofNat, htake]
    rfl

theorem split_eq_ok_iff : split raw = .ok (signatures, message) ↔
    ∃ length, Opens raw signatures.length length ∧
      raw.drop length = signatures.flatMap (·.toList) ++ message := by
  rw [split_eq_ok_iff_take]
  constructor
  · rintro ⟨n, length, hopens, htake⟩
    obtain ⟨rfl, hraw⟩ := takeSignatures_eq_some_iff.1 htake
    exact ⟨length, hopens, hraw⟩
  · rintro ⟨length, hopens, hraw⟩
    exact ⟨_, length, hopens, takeSignatures_eq_some_iff.2 ⟨rfl, hraw⟩⟩

theorem exists_split_iff : (∃ parts, split raw = .ok parts) ↔
    ∃ n length, Opens raw n length ∧ length + 64 * n ≤ raw.length := by
  constructor
  · rintro ⟨parts, h⟩
    obtain ⟨n, length, hopens, htake⟩ := split_eq_ok_iff_take.1 h
    have hfit := exists_takeSignatures_iff.1 ⟨parts, htake⟩
    have hle := hopens.length_le
    rw [List.length_drop] at hfit
    exact ⟨n, length, hopens, by omega⟩
  · rintro ⟨n, length, hopens, hle⟩
    have hfit : 64 * n ≤ (raw.drop length).length := by
      rw [List.length_drop]
      omega
    obtain ⟨parts, htake⟩ := exists_takeSignatures_iff.2 hfit
    exact ⟨parts, split_eq_ok_iff_take.2 ⟨n, length, hopens, htake⟩⟩

theorem split_cases (raw : Bytes) :
    (∃ parts, split raw = .ok parts) ∨ ∃ fault, split raw = .error (.format fault) := by
  cases hdecode : CompactCount.decode raw with
  | error fault => exact .inr ⟨fault, split_of_decode_error hdecode⟩
  | ok found =>
    rw [split_of_decode hdecode]
    cases takeSignatures found.1.toNat (raw.drop found.2) with
    | some parts => exact .inl ⟨parts, rfl⟩
    | none => exact .inr ⟨.signaturesCutOff, rfl⟩

theorem exists_serialize_iff (message : Bytes) :
    (∃ wire, serialize signatures message = .ok wire) ↔ signatures.length ≤ 65535 := by
  simp only [serialize_eq_ok_iff]
  constructor
  · rintro ⟨wire, hlt, -⟩
    omega
  · intro h
    exact ⟨_, by omega, rfl⟩

/-- Up to 65535 signatures are written, and are read back with the message. The bytes of a
transaction are a count at the front and as many signatures; what is left is the message, and no
byte is lost. Any other bytes are refused. -/
theorem split_exact :
    (∀ signatures message,
      ((∃ e, serialize signatures message = .error e) ↔ 65535 < signatures.length) ∧
      ((∃ wire, serialize signatures message = .ok wire ∧ split wire = .ok (signatures, message)) ↔
        signatures.length ≤ 65535)) ∧
    ∀ raw,
      (∀ n length, Opens raw n length ↔
        ∃ count, CompactCount.decode (raw.take 3) = .ok (count, length) ∧ count.toNat = n) ∧
      ((∃ n length signatures message, Opens raw n length ∧ length + 64 * n ≤ raw.length ∧
          split raw = .ok (signatures, message) ∧ signatures.length = n ∧
          signatures.flatMap (·.toList) ++ message = raw.drop length) ∨
        (¬ ∃ n length, Opens raw n length ∧ length + 64 * n ≤ raw.length) ∧
          ∃ fault, split raw = .error (.format fault)) := by
  refine ⟨fun signatures message ↦ ⟨?_, ?_⟩, fun raw ↦ ⟨fun n length ↦ ?_, ?_⟩⟩
  · rw [← Nat.not_le, ← exists_serialize_iff message]
    cases serialize signatures message <;> simp
  · rw [← exists_serialize_iff message]
    constructor
    · rintro ⟨wire, h, -⟩
      exact ⟨wire, h⟩
    · rintro ⟨wire, h⟩
      exact ⟨wire, h, split_of_serialize h⟩
  · constructor
    · exact fun h ↦ ⟨_, (CompactCount.opens_take_iff.2 h).decode_eq, h.toNat_ofNat⟩
    · rintro ⟨count, h, rfl⟩
      exact CompactCount.opens_take_iff.1 (CompactCount.decode_eq_ok_iff_opens.1 h)
  · rcases split_cases raw with ⟨⟨signatures, message⟩, h⟩ | ⟨fault, h⟩
    · left
      obtain ⟨length, hopens, hraw⟩ := split_eq_ok_iff.1 h
      refine ⟨_, length, signatures, message, hopens, ?_, h, rfl, hraw.symm⟩
      have hlength := congrArg List.length hraw
      have hle := hopens.length_le
      rw [List.length_drop, List.length_append, length_flatMap_signatures] at hlength
      omega
    · right
      refine ⟨fun hfit ↦ ?_, fault, h⟩
      obtain ⟨parts, hparts⟩ := exists_split_iff.2 hfit
      rw [h] at hparts
      cases hparts

theorem split_eq_ok_iff_spells : split raw = .ok (signatures, message) ↔
    ∃ count, Spells signatures.length count ∧ count.length ≤ 3 ∧ signatures.length < 0x10000 ∧
      raw = count ++ (signatures.flatMap (·.toList) ++ message) := by
  rw [split_eq_ok_iff]
  constructor
  · rintro ⟨length, hopens, hraw⟩
    obtain ⟨⟨count, rest, rfl, hle, h, rfl⟩, hlt⟩ := CompactCount.opens_iff.1 hopens
    rw [List.drop_left] at hraw
    exact ⟨count, h, hle, hlt, by rw [hraw]⟩
  · rintro ⟨count, h, hle, hlt, rfl⟩
    exact ⟨count.length, CompactCount.opens_iff.2 ⟨⟨count, _, rfl, hle, h, rfl⟩, hlt⟩,
      List.drop_left⟩

/-- What is read is a transaction that can be written, and is written as it was read if its count
was not padded. All that may differ among the bytes that are read as one transaction is the length
of the count. -/
theorem serialize_of_split (h : split raw = .ok (signatures, message)) :
    ∃ count wire, Spells signatures.length count ∧ count.length ≤ 3 ∧
      raw = count ++ (signatures.flatMap (·.toList) ++ message) ∧
      serialize signatures message = .ok wire ∧ (wire = raw ↔ ¬ IsPadded count) ∧
      ∀ raw', split raw' = .ok (signatures, message) → (raw' = raw ↔ raw'.length = raw.length) := by
  obtain ⟨count, hcount, hle, hlt, hraw⟩ := split_eq_ok_iff_spells.1 h
  have hwritten := (CompactCount.spells_encode (UInt16.ofNat signatures.length)).2
  rw [UInt16.toNat_ofNat_of_lt' hlt] at hwritten
  refine ⟨count, _, hcount, hle, hraw, serialize_eq_ok_iff.2 ⟨hlt, rfl⟩, ?_, fun raw' h' ↦ ?_⟩
  · rw [hraw, List.append_assoc, List.append_left_inj]
    constructor
    · intro heq
      rw [← heq]
      exact CompactCount.not_isPadded_encode _
    · intro hpadded
      -- Neither of the two counts is padded, so that both are the shortest spelling.
      exact hwritten.eq_of_not_isPadded (CompactCount.not_isPadded_encode _) hcount hpadded
  · obtain ⟨count', hcount', -, -, hraw'⟩ := split_eq_ok_iff_spells.1 h'
    have hlength : raw'.length = raw.length ↔ count'.length = count.length := by
      simp [hraw, hraw']
    rw [hlength, hraw, hraw', List.append_left_inj]
    exact ⟨congrArg List.length, hcount'.eq_of_length hcount⟩

theorem serialize_of_split_threeByteCount :
    let signatures : List Signature := .replicate 128 (.replicate 64 7)
    let rest : Bytes := signatures.flatMap (·.toList) ++ [9]
    split ([0x80, 0x81, 0] ++ rest) = .ok (signatures, [9]) ∧
      split ([0x80, 1] ++ rest) = .ok (signatures, [9]) ∧
      ∃ wire, serialize signatures [9] = .ok wire ∧ wire ≠ [0x80, 0x81, 0] ++ rest := by
  intro signatures rest
  have hshort : Spells 128 [0x80, 1] :=
    @Spells.more 0x80 1 [1] (by decide) (@Spells.last 1 (by decide))
  have hpadded : Spells 128 [0x80, 0x81, 0] :=
    @Spells.more 0x80 1 [0x81, 0] (by decide)
      (@Spells.more 0x81 0 [0] (by decide) (@Spells.last 0 (by decide)))
  have h : split ([0x80, 0x81, 0] ++ rest) = .ok (signatures, [9]) :=
    split_eq_ok_iff_spells.2 ⟨_, hpadded, by decide, by simp [signatures], rfl⟩
  obtain ⟨count, wire, -, -, hraw, hwire, hiff, -⟩ := serialize_of_split h
  obtain rfl := List.append_cancel_right hraw
  refine ⟨h, split_eq_ok_iff_spells.2 ⟨_, hshort, by decide, by simp [signatures], rfl⟩, wire,
    hwire, fun heq ↦ ?_⟩
  exact hiff.1 heq ⟨by decide, rfl⟩

/-- One signature, once with its count in two bytes and once in one: two byte strings that are read
as the same transaction. The first of them is not what is written for it. -/
theorem split_paddedCount :
    let signature : Signature := .replicate 64 0x11
    let padded : Bytes := [0x81, 0] ++ signature.toList ++ [0xab, 0xcd]
    let written : Bytes := [1] ++ signature.toList ++ [0xab, 0xcd]
    split padded = .ok ([signature], [0xab, 0xcd]) ∧
      split written = .ok ([signature], [0xab, 0xcd]) ∧
      serialize [signature] [0xab, 0xcd] = .ok written ∧ padded ≠ written := by
  decide +kernel

end Wire

end ValidatorClient.Ledger
