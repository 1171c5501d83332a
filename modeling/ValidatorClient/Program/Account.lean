import ValidatorClient.Program.Proposal

namespace ValidatorClient.Program

open Codec Ledger

/-- The counters of a deployment: how many vote accounts and proposals there are, and what is
staked. -/
structure GeneralAccount where
  validationPhrase : UInt32
  voteAccountCount : UInt32
  totalRaised : UInt64
  poolTotal : UInt64
  delegatedTotal : UInt64
  deallocatedTotal : UInt64
  isProposalOngoing : Bool
  proposalCount : UInt32
  pendingDelegationTotal : UInt64
  upgradeProposalCount : UInt32
  validators : List Address
  deriving DecidableEq

def GeneralAccount.layout : Layout GeneralAccount :=
  .via ⟨fun (a, b, c, d, e, f, g, h, i, j, k) ↦ ⟨a, b, c, d, e, f, g, h, i, j, k⟩,
      fun s ↦ (s.validationPhrase, s.voteAccountCount, s.totalRaised, s.poolTotal,
        s.delegatedTotal, s.deallocatedTotal, s.isProposalOngoing, s.proposalCount,
        s.pendingDelegationTotal, s.upgradeProposalCount, s.validators),
      fun _ ↦ rfl, fun _ ↦ rfl⟩
    (.pair .u32 (.pair .u32 (.pair .u64 (.pair .u64 (.pair .u64 (.pair .u64 (.pair .bool (.pair
      .u32 (.pair .u64 (.pair .u32 (.vec Address.layout)))))))))))

structure RewardRecord where
  validationPhrase : UInt32
  epoch : UInt64
  totalReward : UInt64
  totalStake : UInt64
  deriving DecidableEq

def RewardRecord.layout : Layout RewardRecord :=
  .via ⟨fun (a, b, c, d) ↦ ⟨a, b, c, d⟩,
      fun s ↦ (s.validationPhrase, s.epoch, s.totalReward, s.totalStake),
      fun _ ↦ rfl, fun _ ↦ rfl⟩
    (.pair .u32 (.pair .u64 (.pair .u64 .u64)))

structure Rebalancing where
  pendingRewards : UInt64
  unclaimedRewards : UInt64
  isActive : Bool
  deriving DecidableEq

def Rebalancing.layout : Layout Rebalancing :=
  .via ⟨fun (a, b, c) ↦ ⟨a, b, c⟩,
      fun s ↦ (s.pendingRewards, s.unclaimedRewards, s.isActive),
      fun _ ↦ rfl, fun _ ↦ rfl⟩
    (.pair .u64 (.pair .u64 .bool))

structure VoteAccount where
  validationPhrase : UInt32
  totalDelegated : UInt64
  lastWithdrawEpoch : UInt64
  deallocated : UInt64
  rebalancing : Rebalancing
  validatorId : Address
  lastTotalStaked : UInt64
  isStakeInitialized : Bool
  pendingDelegationTotal : UInt64
  rewards : List RewardRecord
  deriving DecidableEq

def VoteAccount.layout : Layout VoteAccount :=
  .via ⟨fun (a, b, c, d, e, f, g, h, i, j) ↦ ⟨a, b, c, d, e, f, g, h, i, j⟩,
      fun s ↦ (s.validationPhrase, s.totalDelegated, s.lastWithdrawEpoch, s.deallocated,
        s.rebalancing, s.validatorId, s.lastTotalStaked, s.isStakeInitialized,
        s.pendingDelegationTotal, s.rewards),
      fun _ ↦ rfl, fun _ ↦ rfl⟩
    (.pair .u32 (.pair .u64 (.pair .u64 (.pair .u64 (.pair Rebalancing.layout (.pair
      Address.layout (.pair .u64 (.pair .bool (.pair .u64 (.vec RewardRecord.layout))))))))))

structure ValidatorProposal where
  validationPhrase : UInt32
  validatorIds : List Address
  created : UInt32
  finalized : Option UInt32
  votes : List UInt32
  winner : Option Address
  deriving DecidableEq

def ValidatorProposal.layout : Layout ValidatorProposal :=
  .via ⟨fun (a, b, c, d, e, f) ↦ ⟨a, b, c, d, e, f⟩,
      fun s ↦ (s.validationPhrase, s.validatorIds, s.created, s.finalized, s.votes, s.winner),
      fun _ ↦ rfl, fun _ ↦ rfl⟩
    (.pair .u32 (.pair (.vec Address.layout) (.pair .u32 (.pair (.option .u32) (.pair (.vec .u32)
      (.option Address.layout))))))

structure UpgradeVote where
  approve : Bool
  validatorId : Address
  deriving DecidableEq

def UpgradeVote.layout : Layout UpgradeVote :=
  .via ⟨fun (a, b) ↦ ⟨a, b⟩,
      fun s ↦ (s.approve, s.validatorId),
      fun _ ↦ rfl, fun _ ↦ rfl⟩
    (.pair .bool Address.layout)

/-- The votes are kept under the mints of the gems that voted. -/
structure UpgradeProposal where
  validationPhrase : UInt32
  buffer : Address
  codeLink : String
  isOngoing : Bool
  votes : OrderedMap Address UpgradeVote
  deriving DecidableEq

def UpgradeProposal.layout : Layout UpgradeProposal :=
  .via ⟨fun (a, b, c, d, e) ↦ ⟨a, b, c, d, e⟩,
      fun s ↦ (s.validationPhrase, s.buffer, s.codeLink, s.isOngoing, s.votes),
      fun _ ↦ rfl, fun _ ↦ rfl⟩
    (.pair .u32 (.pair Address.layout (.pair .string (.pair .bool (.map Address.layout
      UpgradeVote.layout)))))

structure ValidatorConfig where
  validationPhrase : UInt32
  isValidatorIdSwitchable : Bool
  maxPrimaryStake : UInt64
  nftHolderShare : UInt8
  initialRedemptionFee : UInt8
  unitStake : UInt64
  redemptionFeeDuration : UInt32
  proposalQuorum : UInt8
  creatorRoyalties : UInt16
  commission : UInt8
  validatorId : Address
  validatorName : String
  twitterHandle : String
  discordInvite : String
  website : String
  deriving DecidableEq

def ValidatorConfig.layout : Layout ValidatorConfig :=
  .via ⟨fun (a, b, c, d, e, f, g, h, i, j, k, l, m, n, o) ↦ ⟨a, b, c, d, e, f, g, h, i, j, k, l,
    m, n, o⟩,
      fun s ↦ (s.validationPhrase, s.isValidatorIdSwitchable, s.maxPrimaryStake,
        s.nftHolderShare, s.initialRedemptionFee, s.unitStake, s.redemptionFeeDuration,
        s.proposalQuorum, s.creatorRoyalties, s.commission, s.validatorId, s.validatorName,
        s.twitterHandle, s.discordInvite, s.website),
      fun _ ↦ rfl, fun _ ↦ rfl⟩
    (.pair .u32 (.pair .bool (.pair .u64 (.pair .u8 (.pair .u8 (.pair .u64 (.pair .u32 (.pair .u8
      (.pair .u16 (.pair .u8 (.pair Address.layout (.pair .string (.pair .string (.pair .string
      .string))))))))))))))

inductive AccountFault where
  | offsetOverflow (offset : Nat)
  | noAddress (length offset : Nat)
  | undecodable (cause : Codec.Error)
  deriving DecidableEq, Repr

def AccountFault.message : AccountFault → String
  | .offsetOverflow offset => s!"offset {offset} overflows"
  | .noAddress length offset => s!"account data is {length} bytes; no address at offset {offset}"
  | .undecodable cause => cause.message

/-- Accounts may be longer than what they hold. -/
def readAccount {α : Type} (layout : Layout α) (data : Bytes) : Except AccountFault α :=
  match layout.decodeFront data with
  | .ok (a, _) => .ok a
  | .error cause => .error (.undecodable cause)

/-- Offsets and what lies 32 bytes past them are below 2^64. -/
def readAddress (data : Bytes) (offset : Nat) : Except AccountFault Address :=
  if 0x10000000000000000 ≤ offset + 32 then .error (.offsetOverflow offset)
  else
    match FixedBytes.ofList? 32 ((data.drop offset).take 32) with
    | some bytes => .ok ⟨bytes⟩
    | none => .error (.noAddress data.length offset)

/-- Where a gem's account names the vote account to which the gem is delegated. -/
def fundsLocationOffset : Nat := 20

end ValidatorClient.Program
