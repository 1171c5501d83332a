import ValidatorClient.Program.Proposal
import ValidatorClient.Program.Setup

namespace ValidatorClient.Program

open Codec Ledger

inductive Instruction where
  | mintGem (logLevel : UInt8)
  | setUp (setup : Setup)
  | redeemGem (logLevel : UInt8)
  | withdrawRewards (count : UInt32) (logLevel : UInt8)
  | processRewards (logLevel : UInt8)
  | initRebalance (logLevel : UInt8)
  | finalizeRebalance (logLevel : UInt8)
  | uploadUris (uris : List String) (rarity : UInt8) (logLevel : UInt8)
  | resetUris (logLevel : UInt8)
  | undelegateGem (logLevel : UInt8)
  | delegateGem (logLevel : UInt8)
  | createVoteAccount (logLevel : UInt8)
  | openProposal (proposal : Proposal) (logLevel : UInt8)
  | vote (numeration : UInt32) (approve : Bool) (count : UInt8) (logLevel : UInt8)
  | finalizeProposal (numeration : UInt32) (logLevel : UInt8)
  | executeProposal (numeration : UInt32) (logLevel : UInt8)
  deriving DecidableEq

namespace Instruction

def Payload : Fin 16 → Type
  | 0 => UInt8
  | 1 => Setup
  | 2 => UInt8
  | 3 => UInt32 × UInt8
  | 4 => UInt8
  | 5 => UInt8
  | 6 => UInt8
  | 7 => List String × UInt8 × UInt8
  | 8 => UInt8
  | 9 => UInt8
  | 10 => UInt8
  | 11 => UInt8
  | 12 => Proposal × UInt8
  | 13 => UInt32 × Bool × UInt8 × UInt8
  | 14 => UInt32 × UInt8
  | 15 => UInt32 × UInt8
  | ⟨n + 16, h⟩ => absurd h (Nat.not_lt.2 (Nat.le_add_left 16 n))

def payload : (i : Fin 16) → Layout (Payload i)
  | 0 => .u8
  | 1 => Setup.layout
  | 2 => .u8
  | 3 => .pair .u32 .u8
  | 4 => .u8
  | 5 => .u8
  | 6 => .u8
  | 7 => .pair (.vec .string) (.pair .u8 .u8)
  | 8 => .u8
  | 9 => .u8
  | 10 => .u8
  | 11 => .u8
  | 12 => .pair Proposal.layout .u8
  | 13 => .pair .u32 (.pair .bool (.pair .u8 .u8))
  | 14 => .pair .u32 .u8
  | 15 => .pair .u32 .u8
  | ⟨n + 16, h⟩ => absurd h (Nat.not_lt.2 (Nat.le_add_left 16 n))

def ofPayload : (Σ i, Payload i) → Instruction
  | ⟨0, a⟩ => .mintGem a
  | ⟨1, a⟩ => .setUp a
  | ⟨2, a⟩ => .redeemGem a
  | ⟨3, (a, b)⟩ => .withdrawRewards a b
  | ⟨4, a⟩ => .processRewards a
  | ⟨5, a⟩ => .initRebalance a
  | ⟨6, a⟩ => .finalizeRebalance a
  | ⟨7, (a, b, c)⟩ => .uploadUris a b c
  | ⟨8, a⟩ => .resetUris a
  | ⟨9, a⟩ => .undelegateGem a
  | ⟨10, a⟩ => .delegateGem a
  | ⟨11, a⟩ => .createVoteAccount a
  | ⟨12, (a, b)⟩ => .openProposal a b
  | ⟨13, (a, b, c, d)⟩ => .vote a b c d
  | ⟨14, (a, b)⟩ => .finalizeProposal a b
  | ⟨15, (a, b)⟩ => .executeProposal a b
  | ⟨⟨n + 16, h⟩, _⟩ => absurd h (Nat.not_lt.2 (Nat.le_add_left 16 n))

def toPayload : Instruction → Σ i, Payload i
  | .mintGem a => ⟨0, a⟩
  | .setUp a => ⟨1, a⟩
  | .redeemGem a => ⟨2, a⟩
  | .withdrawRewards a b => ⟨3, (a, b)⟩
  | .processRewards a => ⟨4, a⟩
  | .initRebalance a => ⟨5, a⟩
  | .finalizeRebalance a => ⟨6, a⟩
  | .uploadUris a b c => ⟨7, (a, b, c)⟩
  | .resetUris a => ⟨8, a⟩
  | .undelegateGem a => ⟨9, a⟩
  | .delegateGem a => ⟨10, a⟩
  | .createVoteAccount a => ⟨11, a⟩
  | .openProposal a b => ⟨12, (a, b)⟩
  | .vote a b c d => ⟨13, (a, b, c, d)⟩
  | .finalizeProposal a b => ⟨14, (a, b)⟩
  | .executeProposal a b => ⟨15, (a, b)⟩

theorem toPayload_ofPayload : ∀ p, toPayload (ofPayload p) = p
  | ⟨0, _⟩ => rfl
  | ⟨1, _⟩ => rfl
  | ⟨2, _⟩ => rfl
  | ⟨3, _⟩ => rfl
  | ⟨4, _⟩ => rfl
  | ⟨5, _⟩ => rfl
  | ⟨6, _⟩ => rfl
  | ⟨7, _⟩ => rfl
  | ⟨8, _⟩ => rfl
  | ⟨9, _⟩ => rfl
  | ⟨10, _⟩ => rfl
  | ⟨11, _⟩ => rfl
  | ⟨12, _⟩ => rfl
  | ⟨13, _⟩ => rfl
  | ⟨14, _⟩ => rfl
  | ⟨15, _⟩ => rfl
  | ⟨⟨n + 16, h⟩, _⟩ => absurd h (Nat.not_lt.2 (Nat.le_add_left 16 n))

theorem ofPayload_toPayload (i : Instruction) : ofPayload (toPayload i) = i := by
  cases i <;> rfl

/-- An instruction is its opcode and its fields in order. -/
def layout : Layout Instruction :=
  .via ⟨ofPayload, toPayload, toPayload_ofPayload, ofPayload_toPayload⟩
    (.union "InglInstruction" (by decide) payload)

def opcode : Instruction → UInt8
  | .mintGem _ => 0
  | .setUp _ => 1
  | .redeemGem _ => 2
  | .withdrawRewards _ _ => 3
  | .processRewards _ => 4
  | .initRebalance _ => 5
  | .finalizeRebalance _ => 6
  | .uploadUris _ _ _ => 7
  | .resetUris _ => 8
  | .undelegateGem _ => 9
  | .delegateGem _ => 10
  | .createVoteAccount _ => 11
  | .openProposal _ _ => 12
  | .vote _ _ _ _ => 13
  | .finalizeProposal _ _ => 14
  | .executeProposal _ _ => 15

def logLevel : Instruction → UInt8
  | .mintGem level => level
  | .setUp setup => setup.logLevel
  | .redeemGem level => level
  | .withdrawRewards _ level => level
  | .processRewards level => level
  | .initRebalance level => level
  | .finalizeRebalance level => level
  | .uploadUris _ _ level => level
  | .resetUris level => level
  | .undelegateGem level => level
  | .delegateGem level => level
  | .createVoteAccount level => level
  | .openProposal _ level => level
  | .vote _ _ _ level => level
  | .finalizeProposal _ level => level
  | .executeProposal _ level => level

end Instruction

end ValidatorClient.Program
