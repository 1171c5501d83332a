import ValidatorClient.Codec.Layout
import ValidatorClient.Program.Argument

namespace ValidatorClient.Program

open Codec

/-- What a validator's accounts start from. Of the rarities each is the share of all gems up to
it. -/
structure Setup where
  logLevel : UInt8
  commission : UInt8
  maxPrimaryStake : UInt64
  nftHolderShare : UInt8
  initialRedemptionFee : UInt8
  isValidatorIdSwitchable : Bool
  unitBacking : UInt64
  redemptionFeeDuration : UInt32
  upgradeThreshold : UInt8
  creatorRoyalties : UInt16
  rarities : List UInt16
  rarityNames : List String
  twitterHandle : String
  discordInvite : String
  validatorName : String
  collectionUri : String
  website : String
  deriving DecidableEq

def Setup.layout : Layout Setup :=
  .via ⟨fun (a, b, c, d, e, f, g, h, i, j, k, l, m, n, o, p, q) ↦ ⟨a, b, c, d, e, f, g, h, i, j,
    k, l, m, n, o, p, q⟩,
      fun s ↦ (s.logLevel, s.commission, s.maxPrimaryStake, s.nftHolderShare,
        s.initialRedemptionFee, s.isValidatorIdSwitchable, s.unitBacking,
        s.redemptionFeeDuration, s.upgradeThreshold, s.creatorRoyalties, s.rarities,
        s.rarityNames, s.twitterHandle, s.discordInvite, s.validatorName, s.collectionUri,
        s.website),
      fun _ ↦ rfl, fun _ ↦ rfl⟩
    (.pair .u8 (.pair .u8 (.pair .u64 (.pair .u8 (.pair .u8 (.pair .bool (.pair .u64 (.pair .u32
      (.pair .u8 (.pair .u16 (.pair (.vec .u16) (.pair (.vec .string) (.pair .string (.pair
      .string (.pair .string (.pair .string .string))))))))))))))))

def decreases : List UInt16 → Bool
  | a :: b :: rest => b < a || decreases (b :: rest)
  | _ => false

def checkRarities (rarities : List UInt16) (names : List String) : Except ArgumentFault Unit :=
  if rarities.isEmpty then .error .noRarities
  else if rarities.length ≠ names.length then .error (.rarityNames rarities.length names.length)
  else if decreases rarities then .error .rarityOrder
  else if rarities.getLast?.map (·.toNat) ≠ some rarityTotal then .error .rarityEnd
  else .ok ()

def Setup.check (s : Setup) : Except ArgumentFault Unit := do
  checkLogLevel s.logLevel
  atMost "init_commission" s.commission.toNat 100
  atLeast "max_primary_stake" s.maxPrimaryStake.toNat minStake
  atMost "nft_holder_share" s.nftHolderShare.toNat 100
  atMost "initial_redemption_fee" s.initialRedemptionFee.toNat maxRedemptionFee
  if 0 < s.initialRedemptionFee && !s.isValidatorIdSwitchable then throw .redemptionFee
  atLeast "unit_backing" s.unitBacking.toNat minStake
  atMost "redemption_fee_duration" s.redemptionFeeDuration.toNat maxRedemptionFeeDuration
  atLeast "program_upgrade_threshold" s.upgradeThreshold.toNat minUpgradeThreshold
  atMost "program_upgrade_threshold" s.upgradeThreshold.toNat 100
  atMost "creator_royalties" s.creatorRoyalties.toNat maxRoyalties
  checkRarities s.rarities s.rarityNames

end ValidatorClient.Program
