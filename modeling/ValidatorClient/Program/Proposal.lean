import ValidatorClient.Codec.Layout
import ValidatorClient.Ledger.Address
import ValidatorClient.Program.Argument

namespace ValidatorClient

open Codec Ledger

def Ledger.Address.layout : Layout Address :=
  .via ⟨Address.mk, Address.bytes, fun _ ↦ rfl, fun _ ↦ rfl⟩ (.bytes 32)

namespace Program

inductive ConfigChange where
  | maxPrimaryStake (lamports : UInt64)
  | nftHolderShare (percent : UInt8)
  | initialRedemptionFee (percent : UInt8)
  | redemptionFeeDuration (seconds : UInt32)
  | validatorName (name : String)
  | twitterHandle (handle : String)
  | discordInvite (invite : String)
  deriving DecidableEq

namespace ConfigChange

def Payload : Fin 7 → Type
  | 0 => UInt64
  | 1 => UInt8
  | 2 => UInt8
  | 3 => UInt32
  | 4 => String
  | 5 => String
  | 6 => String

def payload : (i : Fin 7) → Layout (Payload i)
  | 0 => .u64
  | 1 => .u8
  | 2 => .u8
  | 3 => .u32
  | 4 => .string
  | 5 => .string
  | 6 => .string

def ofPayload : (Σ i, Payload i) → ConfigChange
  | ⟨0, a⟩ => .maxPrimaryStake a
  | ⟨1, a⟩ => .nftHolderShare a
  | ⟨2, a⟩ => .initialRedemptionFee a
  | ⟨3, a⟩ => .redemptionFeeDuration a
  | ⟨4, a⟩ => .validatorName a
  | ⟨5, a⟩ => .twitterHandle a
  | ⟨6, a⟩ => .discordInvite a

def toPayload : ConfigChange → Σ i, Payload i
  | .maxPrimaryStake a => ⟨0, a⟩
  | .nftHolderShare a => ⟨1, a⟩
  | .initialRedemptionFee a => ⟨2, a⟩
  | .redemptionFeeDuration a => ⟨3, a⟩
  | .validatorName a => ⟨4, a⟩
  | .twitterHandle a => ⟨5, a⟩
  | .discordInvite a => ⟨6, a⟩

theorem toPayload_ofPayload : ∀ p, toPayload (ofPayload p) = p
  | ⟨0, _⟩ => rfl
  | ⟨1, _⟩ => rfl
  | ⟨2, _⟩ => rfl
  | ⟨3, _⟩ => rfl
  | ⟨4, _⟩ => rfl
  | ⟨5, _⟩ => rfl
  | ⟨6, _⟩ => rfl

theorem ofPayload_toPayload (c : ConfigChange) : ofPayload (toPayload c) = c := by
  cases c <;> rfl

def layout : Layout ConfigChange :=
  .via ⟨ofPayload, toPayload, toPayload_ofPayload, ofPayload_toPayload⟩
    (.union "ConfigAccountType" (by decide) payload)

end ConfigChange

inductive VoteAccountChange where
  | validatorId (id : Address)
  | commission (percent : UInt8)
  deriving DecidableEq

namespace VoteAccountChange

def Payload : Fin 2 → Type
  | 0 => Address
  | 1 => UInt8

def payload : (i : Fin 2) → Layout (Payload i)
  | 0 => Address.layout
  | 1 => .u8

def ofPayload : (Σ i, Payload i) → VoteAccountChange
  | ⟨0, a⟩ => .validatorId a
  | ⟨1, a⟩ => .commission a

def toPayload : VoteAccountChange → Σ i, Payload i
  | .validatorId a => ⟨0, a⟩
  | .commission a => ⟨1, a⟩

theorem toPayload_ofPayload : ∀ p, toPayload (ofPayload p) = p
  | ⟨0, _⟩ => rfl
  | ⟨1, _⟩ => rfl

theorem ofPayload_toPayload (c : VoteAccountChange) : ofPayload (toPayload c) = c := by
  cases c <;> rfl

def layout : Layout VoteAccountChange :=
  .via ⟨ofPayload, toPayload, toPayload_ofPayload, ofPayload_toPayload⟩
    (.union "VoteAccountGovernance" (by decide) payload)

end VoteAccountChange

inductive Proposal where
  | config (change : ConfigChange)
  | upgrade (buffer : Address) (codeLink : String)
  | voteAccount (change : VoteAccountChange)
  deriving DecidableEq

inductive ProposalKind where
  | config
  | upgrade (buffer : Address) (codeLink : String)
  | voteAccount
  deriving DecidableEq

def ProposalKind.discriminant : ProposalKind → Nat
  | .config => 0
  | .upgrade _ _ => 1
  | .voteAccount => 2

namespace Proposal

def Payload : Fin 3 → Type
  | 0 => ConfigChange
  | 1 => Address × String
  | 2 => VoteAccountChange

def payload : (i : Fin 3) → Layout (Payload i)
  | 0 => ConfigChange.layout
  | 1 => .pair Address.layout .string
  | 2 => VoteAccountChange.layout

def ofPayload : (Σ i, Payload i) → Proposal
  | ⟨0, a⟩ => .config a
  | ⟨1, (a, b)⟩ => .upgrade a b
  | ⟨2, a⟩ => .voteAccount a

def toPayload : Proposal → Σ i, Payload i
  | .config a => ⟨0, a⟩
  | .upgrade a b => ⟨1, (a, b)⟩
  | .voteAccount a => ⟨2, a⟩

theorem toPayload_ofPayload : ∀ p, toPayload (ofPayload p) = p
  | ⟨0, _⟩ => rfl
  | ⟨1, _⟩ => rfl
  | ⟨2, _⟩ => rfl

theorem ofPayload_toPayload (p : Proposal) : ofPayload (toPayload p) = p := by
  cases p <;> rfl

def layout : Layout Proposal :=
  .via ⟨ofPayload, toPayload, toPayload_ofPayload, ofPayload_toPayload⟩
    (.union "GovernanceType" (by decide) payload)

def kind : Proposal → ProposalKind
  | .config _ => .config
  | .upgrade buffer codeLink => .upgrade buffer codeLink
  | .voteAccount _ => .voteAccount

end Proposal

def ConfigChange.check : ConfigChange → Except ArgumentFault Unit
  | .maxPrimaryStake n => atLeast "max_primary_stake" n.toNat minStake
  | .nftHolderShare n => atMost "nft_holder_share" n.toNat 100
  | .initialRedemptionFee n => atMost "initial_redemption_fee" n.toNat maxRedemptionFee
  | .redemptionFeeDuration n => atMost "redemption_fee_duration" n.toNat maxRedemptionFeeDuration
  | .validatorName _ => .ok ()
  | .twitterHandle _ => .ok ()
  | .discordInvite _ => .ok ()

namespace Proposal

def check : Proposal → Except ArgumentFault Unit
  | .config change => change.check
  | .voteAccount (.commission n) => atMost "commission" n.toNat 100
  | .voteAccount (.validatorId _) => .ok ()
  | .upgrade _ codeLink => if codeLink.isEmpty then .error .noCodeLink else .ok ()

/-- Joins a kind with the change that it takes, which has to be the only one given. -/
def make (kind : ProposalKind) (config : Option ConfigChange)
    (voteAccount : Option VoteAccountChange) : Except ArgumentFault Proposal := do
  let proposal ← match kind, config, voteAccount with
    | .config, some change, none => .ok (.config change)
    | .voteAccount, none, some change => .ok (.voteAccount change)
    | .upgrade buffer codeLink, none, none => .ok (.upgrade buffer codeLink)
    | kind, config, voteAccount =>
      .error (.payload kind.discriminant config.isSome voteAccount.isSome)
  proposal.check
  return proposal

end Proposal

end Program

end ValidatorClient
