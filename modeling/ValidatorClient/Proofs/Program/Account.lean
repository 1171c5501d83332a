import ValidatorClient.Program.Account
import ValidatorClient.Proofs.Codec.Exact

namespace ValidatorClient

open Codec Ledger

def Bytes.wordAt (offset : Nat) (data : Bytes) : UInt32 :=
  UInt32.ofNat (ofLittleEndian ((data.drop offset).take 4))

namespace Codec.Layout

variable {α β : Type} {layout : Layout α} {first : Layout α} {second : Layout β} {a : α} {p : α × β}
  {offset width : Nat} {data : Bytes}

def StandsAt (layout : Layout α) (a : α) (offset : Nat) (data : Bytes) : Prop :=
  ∃ encoded rest, layout.encode a = .ok encoded ∧ data.drop offset = encoded ++ rest

theorem standsAt_of_decodeFront {n : Nat} (h : layout.decodeFront data = .ok (a, n)) :
    layout.StandsAt a 0 data := by
  obtain ⟨encoded, rest, he, hdata, -⟩ := decodeFront_eq_ok_iff.1 h
  exact ⟨encoded, rest, he, hdata⟩

theorem StandsAt.fst (h : (pair first second).StandsAt p offset data) :
    first.StandsAt p.1 offset data := by
  obtain ⟨encoded, rest, he, hdata⟩ := h
  rw [encode_pair] at he
  obtain ⟨front, back, hfront, -, hsplit⟩ := append_eq_ok_iff.1 he
  refine ⟨front, back ++ rest, hfront, ?_⟩
  rw [hdata, hsplit, List.append_assoc]

theorem StandsAt.snd (h : (pair first second).StandsAt p offset data)
    (hwidth : ∀ encoded, first.encode p.1 = .ok encoded → encoded.length = width) :
    second.StandsAt p.2 (offset + width) data := by
  obtain ⟨encoded, rest, he, hdata⟩ := h
  rw [encode_pair] at he
  obtain ⟨front, back, hfront, hback, hsplit⟩ := append_eq_ok_iff.1 he
  refine ⟨back, rest, hback, ?_⟩
  rw [← List.drop_drop, hdata, hsplit, List.append_assoc, List.drop_left' (hwidth front hfront)]

theorem StandsAt.wordAt {n : UInt32} (h : u32.StandsAt n offset data) : data.wordAt offset = n := by
  obtain ⟨encoded, rest, he, hdata⟩ := h
  cases he
  rw [Bytes.wordAt, hdata, List.nil_append, List.take_left' (Bytes.length_littleEndian 4 n.toNat),
    Bytes.ofLittleEndian_littleEndian n.toNat_lt, UInt32.ofNat_toNat]

end Codec.Layout

namespace Program

variable {data : Bytes}

theorem readAddress_eq_ok_iff {a : Address} :
    readAddress data fundsLocationOffset = .ok a ↔ a.toList = (data.drop 20).take 32 := by
  rw [Address.toList, ← FixedBytes.ofList?_eq_some_iff, readAddress, if_neg (by decide),
    fundsLocationOffset]
  cases FixedBytes.ofList? 32 ((data.drop 20).take 32) with
  | none => exact iff_of_false nofun nofun
  | some bytes =>
    constructor
    · intro h
      cases h
      rfl
    · intro h
      rw [Option.some.inj h]

theorem readAddress_of_short (h : data.length < 52) :
    readAddress data fundsLocationOffset = .error (.noAddress data.length 20) := by
  have hlength : ((data.drop 20).take 32).length ≠ 32 := by
    simp only [List.length_take, List.length_drop]
    omega
  rw [readAddress, if_neg (by decide), fundsLocationOffset, FixedBytes.ofList?, dif_neg hlength]

theorem exists_readAddress (h : 52 ≤ data.length) :
    ∃ a, readAddress data fundsLocationOffset = .ok a := by
  have hlength : ((data.drop 20).take 32).length = 32 := by
    simp only [List.length_take, List.length_drop]
    omega
  exact ⟨⟨⟨_, hlength⟩⟩, readAddress_eq_ok_iff.2 rfl⟩

theorem readAccount_eq_ok_iff {α : Type} {layout : Layout α} {a : α} :
    readAccount layout data = .ok a ↔ ∃ n, layout.decodeFront data = .ok (a, n) := by
  unfold readAccount
  cases layout.decodeFront data with
  | ok front =>
    obtain ⟨a', n⟩ := front
    constructor
    · intro h
      cases h
      exact ⟨n, rfl⟩
    · intro h
      obtain ⟨_, h⟩ := h
      cases h
      rfl
  | error cause => exact iff_of_false nofun nofun

theorem readAccount_of_error {α : Type} {layout : Layout α} {cause : Codec.Error}
    (h : layout.decodeFront data = .error cause) :
    readAccount layout data = .error (.undecodable cause) := by
  unfold readAccount
  rw [h]

theorem wordAt_of_decodeFront {g : GeneralAccount} {n : Nat}
    (h : GeneralAccount.layout.decodeFront data = .ok (g, n)) :
    data.wordAt 4 = g.voteAccountCount ∧ data.wordAt 41 = g.proposalCount := by
  have h4 {n : UInt32} (encoded : Bytes) (h : Layout.u32.encode n = .ok encoded) :
      encoded.length = 4 := by
    cases h
    rfl
  have h8 {n : UInt64} (encoded : Bytes) (h : Layout.u64.encode n = .ok encoded) :
      encoded.length = 8 := by
    cases h
    rfl
  have h1 {b : Bool} (encoded : Bytes) (h : Layout.bool.encode b = .ok encoded) :
      encoded.length = 1 := by
    cases h
    rfl
  have hcount := (Layout.standsAt_of_decodeFront h).snd h4
  exact ⟨hcount.fst.wordAt, ((((((hcount.snd h4).snd h8).snd h8).snd h8).snd h8).snd h1).fst.wordAt⟩

end Program

end ValidatorClient
