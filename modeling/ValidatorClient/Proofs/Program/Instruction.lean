import ValidatorClient.Program.Instruction
import ValidatorClient.Proofs.Codec.Exact

namespace ValidatorClient

open Codec

namespace Codec.Layout

variable {α β : Type}

theorem eq_of_encode_append {layout : Layout α} {a b : α} {encoded tail : Bytes}
    (ha : layout.encode a = .ok encoded) (hb : layout.encode b = .ok (encoded ++ tail)) :
    a = b ∧ tail = [] := by
  have hfront : layout.decodeFront (encoded ++ tail) = .ok (a, encoded.length) :=
    decodeFront_eq_ok_iff.2 ⟨encoded, tail, ha, rfl, rfl⟩
  have hfront' : layout.decodeFront (encoded ++ tail) = .ok (b, (encoded ++ tail).length) :=
    decodeFront_eq_ok_iff.2 ⟨encoded ++ tail, [], hb, (List.append_nil _).symm, rfl⟩
  have h := hfront.symm.trans hfront'
  injection h with h
  injection h with hab hl
  rw [List.length_append] at hl
  exact ⟨hab, List.eq_nil_of_length_eq_zero (by omega)⟩

def Ends (layout : Layout α) (a : α) (b : UInt8) : Prop :=
  ∀ encoded, layout.encode a = .ok encoded → encoded.getLast? = some b

theorem ends_u8 (b : UInt8) : Ends .u8 b b := by
  intro encoded h
  cases h
  rfl

theorem Ends.pair {first : Layout α} {second : Layout β} {p : α × β} {b : UInt8}
    (h : Ends second p.2 b) : Ends (.pair first second) p b := by
  intro encoded he
  rw [encode_pair] at he
  obtain ⟨front, rest, -, hrest, hsplit⟩ := append_eq_ok_iff.1 he
  rw [hsplit, List.getLast?_append, h rest hrest]
  rfl

theorem Ends.union {name : String} {n : Nat} {n_lt : n < 256} {Payload : Fin (n + 1) → Type}
    {payload : (i : Fin (n + 1)) → Layout (Payload i)} {a : Σ i, Payload i} {b : UInt8}
    (h : Ends (payload a.1) a.2 b) : Ends (.union name n_lt payload) a b := by
  intro encoded he
  rw [encode_union] at he
  obtain ⟨rest, hrest, hsplit⟩ := cons_eq_ok_iff.1 he
  rw [hsplit, List.getLast?_cons, h rest hrest]
  rfl

end Codec.Layout

namespace Program.Instruction

open Layout

theorem encode_eq_ok_iff {i : Instruction} {encoded : Bytes} :
    layout.encode i = .ok encoded ↔
      ∃ rest, (payload i.toPayload.1).encode i.toPayload.2 = .ok rest ∧
        encoded = i.opcode :: rest := by
  have h : i.opcode = UInt8.ofNat i.toPayload.1.val := by
    cases i <;> rfl
  rw [h, ← cons_eq_ok_iff, ← encode_union "InglInstruction" (by decide)]
  rfl

theorem ends_logLevel {i : Instruction} (h : ∀ setup, i ≠ .setUp setup) :
    Ends layout i i.logLevel := by
  suffices Ends (payload i.toPayload.1) i.toPayload.2 i.logLevel from this.union
  cases i with
  | setUp setup => exact absurd rfl (h setup)
  | mintGem | redeemGem | processRewards | initRebalance | finalizeRebalance | resetUris
  | undelegateGem | delegateGem | createVoteAccount => exact ends_u8 _
  | withdrawRewards | openProposal | finalizeProposal | executeProposal => exact (ends_u8 _).pair
  | uploadUris => exact (ends_u8 _).pair.pair
  | vote => exact (ends_u8 _).pair.pair.pair

theorem encode_setUp {setup : Setup} {encoded : Bytes}
    (h : layout.encode (.setUp setup) = .ok encoded) :
    encoded[1]? = some setup.logLevel := by
  obtain ⟨rest, hrest, hsplit⟩ := encode_eq_ok_iff.1 h
  have hpair : Setup.layout.encode setup = .ok rest := hrest
  rw [Setup.layout, encode_via, encode_pair] at hpair
  obtain ⟨level, rest', hlevel, -, hrest'⟩ := append_eq_ok_iff.1 hpair
  cases hlevel
  rw [hsplit, hrest']
  rfl

theorem decodeFront_unknown {b : UInt8} (hb : 16 ≤ b.toNat) (rest : Bytes) :
    layout.decodeFront (b :: rest) = .error (.unknownVariant "InglInstruction" b) := by
  have h : Read.discriminant "InglInstruction" 16 (Reader.start (b :: rest)) =
      (.error (.unknownVariant "InglInstruction" b), ⟨1, rest⟩) :=
    Read.discriminant_of_le hb
  have hdecode : layout.decode (Reader.start (b :: rest)) =
      (.error (.unknownVariant "InglInstruction" b), ⟨1, rest⟩) := by
    rw [layout, decode_via, decode_union, map_eq_pure_bind]
    exact Read.bind_eq_error (Read.bind_eq_error h)
  rw [decodeFront, hdecode]

/-- The opcodes and the fields of all instructions are read exactly as they are written, no encoding
begins another one, and the log level stands where the program looks for it. -/
theorem encode_decode_exact :
    (∀ i encoded, layout.encode i = .ok encoded →
      (∀ tail, layout.decodeFront (encoded ++ tail) = .ok (i, encoded.length)) ∧
      ((∀ setup, i ≠ .setUp setup) → encoded.getLast? = some i.logLevel) ∧
      ((∃ setup, i = .setUp setup) → encoded[1]? = some i.logLevel)) ∧
    (∀ input i n, layout.decodeFront input = .ok (i, n) →
      n ≤ input.length ∧ layout.encode i = .ok (input.take n) ∧ input.head? = some i.opcode) ∧
    (∀ b rest, 16 ≤ b.toNat →
      layout.decodeFront (b :: rest) = .error (.unknownVariant "InglInstruction" b)) ∧
    ∀ i j encoded tail, layout.encode i = .ok encoded → layout.encode j = .ok (encoded ++ tail) →
      i = j ∧ tail = [] := by
  refine ⟨?_, ?_, fun b rest hb ↦ decodeFront_unknown hb rest, fun i j _ _ ↦ eq_of_encode_append⟩
  · intro i encoded he
    refine ⟨fun tail ↦ decodeFront_eq_ok_iff.2 ⟨encoded, tail, he, rfl, rfl⟩,
      fun h ↦ ends_logLevel h encoded he, ?_⟩
    intro h
    obtain ⟨setup, hi⟩ := h
    rw [hi] at he ⊢
    exact encode_setUp he
  · intro input i n h
    obtain ⟨encoded, rest, he, hinput, hn⟩ := decodeFront_eq_ok_iff.1 h
    obtain ⟨fields, -, hencoded⟩ := encode_eq_ok_iff.1 he
    rw [hinput, hn]
    refine ⟨?_, ?_, ?_⟩
    · rw [List.length_append]
      exact Nat.le_add_right _ _
    · rw [List.take_left]
      exact he
    · rw [hencoded]
      rfl

theorem encode_decode_exact_openProposal :
    let instruction : Instruction := .openProposal (.config (.validatorName "é")) 4
    let encoded : Bytes := [12, 0, 4, 2, 0, 0, 0, 0xC3, 0xA9, 4]
    layout.decodeFront (encoded ++ [9]) = .ok (instruction, 10) ∧
      encoded.getLast? = some instruction.logLevel ∧
      layout.encode instruction = .ok ((encoded ++ [9]).take 10) ∧
      layout.decodeFront [16, 0] = .error (.unknownVariant "InglInstruction" 16) ∧
      ∀ i, layout.encode i = .ok (encoded ++ []) → instruction = i := by
  intro instruction encoded
  have he : layout.encode instruction = .ok encoded := by decide +kernel
  obtain ⟨hforth, hback, hunknown, hfree⟩ := encode_decode_exact
  obtain ⟨hfront, hlast, -⟩ := hforth _ _ he
  exact ⟨hfront [9], hlast (fun _ ↦ nofun), (hback _ _ _ (hfront [9])).2.1,
    hunknown 16 [0] (by decide), fun i hi ↦ (hfree _ i _ _ he hi).1⟩

end Program.Instruction

end ValidatorClient
