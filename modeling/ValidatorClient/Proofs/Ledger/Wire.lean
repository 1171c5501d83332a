import ValidatorClient.Ledger.Wire

namespace ValidatorClient.Ledger

namespace CompactCount

variable {place low consumed k : Nat} {b : UInt8} {bytes : Bytes}

theorem decodeFrom_of_lt (hb : b.toNat < 128) (hn : low + b.toNat * place < 0x10000) :
    decodeFrom place low consumed (k + 1) (b :: bytes) =
      .ok (UInt16.ofNat (low + b.toNat * place), consumed + 1) := by
  rw [decodeFrom, Nat.mod_eq_of_lt hb]
  simp [Nat.not_le.2 hb, hn]

theorem decodeFrom_of_le (hb : 128 ≤ b.toNat) :
    decodeFrom place low consumed (k + 1) (b :: bytes) =
      decodeFrom (128 * place) (low + b.toNat % 128 * place) (consumed + 1) k bytes := by
  rw [decodeFrom]
  simp [hb]

/-- By the number of bytes: all but the last one carry the top bit. -/
theorem decode_encode_append (n : UInt16) (tail : Bytes) :
    decode (encode n ++ tail) = .ok (n, (encode n).length) := by
  have hn := n.toNat_lt
  have hbyte (m : Nat) (hm : m < 256) : (UInt8.ofNat m).toNat = m := UInt8.toNat_ofNat_of_lt' hm
  unfold encode decode
  by_cases h₁ : n.toNat < 0x80
  · have hlast := hbyte n.toNat (by omega)
    rw [if_pos h₁, List.cons_append, decodeFrom_of_lt (by omega) (by omega), hlast]
    simp
  · have hfirst := hbyte (n.toNat % 128 + 128) (by omega)
    rw [if_neg h₁]
    by_cases h₂ : n.toNat < 0x4000
    · have hlast := hbyte (n.toNat / 128) (by omega)
      have hsum :
        0 + (n.toNat % 128 + 128) % 128 * 1 + n.toNat / 128 * (128 * 1) = n.toNat := by omega
      rw [if_pos h₂, List.cons_append, List.cons_append, decodeFrom_of_le (by omega),
        decodeFrom_of_lt (by omega) (by omega), hfirst, hlast, hsum]
      simp
    · have hsecond := hbyte (n.toNat / 128 % 128 + 128) (by omega)
      have hlast := hbyte (n.toNat / 16384) (by omega)
      have hsum : 0 + (n.toNat % 128 + 128) % 128 * 1 +
          (n.toNat / 128 % 128 + 128) % 128 * (128 * 1) +
          n.toNat / 16384 * (128 * (128 * 1)) = n.toNat := by omega
      rw [if_neg h₂, List.cons_append, List.cons_append, List.cons_append,
        decodeFrom_of_le (by omega), decodeFrom_of_le (by omega),
        decodeFrom_of_lt (by omega) (by omega), hfirst, hsecond, hlast, hsum]
      simp

end CompactCount

namespace Wire

theorem takeSignatures_flatMap (signatures : List Signature) (message : Bytes) :
    takeSignatures signatures.length (signatures.flatMap (·.toList) ++ message) =
      some (signatures, message) := by
  induction signatures with
  | nil => rfl
  | cons signature signatures ih =>
    simp [takeSignatures, List.take_left' signature.length_eq, List.drop_left' signature.length_eq,
      ih, FixedBytes.ofList?_toList]

theorem serialize_eq_ok_iff {signatures : List Signature} {message wire : Bytes} :
    serialize signatures message = .ok wire ↔
      signatures.length < 0x10000 ∧
        wire = CompactCount.encode (UInt16.ofNat signatures.length) ++
          signatures.flatMap (·.toList) ++ message := by
  unfold serialize CompactCount.ofPart
  by_cases h : signatures.length < 0x10000
  · simp [h, eq_comm]
  · simp [h]

theorem split_of_serialize {signatures : List Signature} {message wire : Bytes}
    (h : serialize signatures message = .ok wire) : split wire = .ok (signatures, message) := by
  obtain ⟨hlt, hwire⟩ := serialize_eq_ok_iff.1 h
  have hcount : (UInt16.ofNat signatures.length).toNat = signatures.length :=
    UInt16.toNat_ofNat_of_lt' hlt
  rw [split, hwire, List.append_assoc, CompactCount.decode_encode_append]
  dsimp only
  rw [hcount, List.drop_left, takeSignatures_flatMap]

end Wire

end ValidatorClient.Ledger
