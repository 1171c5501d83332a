namespace ValidatorClient.Program

inductive ArgumentFault where
  | above (name : String) (value limit : Nat)
  | below (name : String) (value limit : Nat)
  | doesNotFit (name : String) (value : Nat)
  | redemptionFee
  | noRarities
  | rarityNames (rarities names : Nat)
  | rarityOrder
  | rarityEnd
  | noGems (command : String)
  | noUris
  | noCodeLink
  | payload (kind : Nat) (config voteAccount : Bool)
  deriving DecidableEq, Repr

def minStake : Nat := 1000000000

def maxLogLevel : Nat := 5

def maxRedemptionFee : Nat := 25

def maxRedemptionFeeDuration : Nat := 63072000

def minUpgradeThreshold : Nat := 65

def maxRoyalties : Nat := 500

/-- Rarity thresholds are shares of this number. -/
def rarityTotal : Nat := 10000

def ArgumentFault.message : ArgumentFault → String
  | .above name value limit => s!"{name} {value} exceeds {limit}"
  | .below name value limit => s!"{name} {value} is below {limit}"
  | .doesNotFit name value => s!"{name} {value} does not fit its field"
  | .redemptionFee =>
    "initial_redemption_fee must be 0 when the validator id is not switchable"
  | .noRarities => "rarities must not be empty"
  | .rarityNames rarities names => s!"{rarities} rarities but {names} rarity names"
  | .rarityOrder => "rarities must be non-decreasing"
  | .rarityEnd => s!"rarities must end at {rarityTotal}"
  | .noGems command => s!"{command} needs at least one gem"
  | .noUris => "uris must not be empty"
  | .noCodeLink => "program upgrade proposals need a code link"
  | .payload kind config voteAccount =>
    s!"governance kind {kind} does not take the supplied payload " ++
      s!"(config: {config}, vote account: {voteAccount})"

def atMost (name : String) (value limit : Nat) : Except ArgumentFault Unit :=
  if limit < value then .error (.above name value limit) else .ok ()

def atLeast (name : String) (value limit : Nat) : Except ArgumentFault Unit :=
  if value < limit then .error (.below name value limit) else .ok ()

def checkLogLevel (level : UInt8) : Except ArgumentFault Unit :=
  atMost "log_level" level.toNat maxLogLevel

end ValidatorClient.Program
