import ValidatorClient.Ledger.DerivedAddress
import ValidatorClient.Ledger.WellKnown

namespace ValidatorClient.Program

open Ledger

inductive SingleAccount where
  | config
  | uris
  | general
  | collectionMint
  | mintAuthority
  | collectionHolder
  | authorizedWithdrawer
  | stake
  | pool
  | temporaryStake
  | temporaryWithdraw
  | programAuthority
  deriving DecidableEq, Repr

def ascii (s : String) : Bytes := s.toList.map fun c ↦ UInt8.ofNat c.toNat

def SingleAccount.seed : SingleAccount → Bytes
  | .config => ascii "ingl_config"
  | .uris => ascii "uris_account"
  | .general => ascii "general_account"
  | .collectionMint => ascii "ingl_nft_collection"
  | .mintAuthority => ascii "ingl_mint_authority"
  | .collectionHolder => ascii "collection_holder"
  | .authorizedWithdrawer => ascii "authorized_withdrawer"
  | .stake => ascii "stake_account"
  | .pool => ascii "pd_pool_account"
  | .temporaryStake => ascii "t_stake_account_key"
  | .temporaryWithdraw => ascii "t_withdraw_key"
  | .programAuthority => ascii "ingl_program_authority"

inductive Location where
  | single (program : Address) (account : SingleAccount)
  | gem (program mint : Address)
  | voteAccount (program : Address) (numeration : UInt32)
  | proposal (program : Address) (numeration : UInt32)
  | bufferAuthority (program : Address)
  | upgradeAuthority (program : Address)
  | programData (program : Address)
  | metadata (mint : Address)
  | edition (mint : Address)
  | associatedToken (wallet mint : Address)
  deriving DecidableEq

namespace Location

def seeds : Location → List Bytes
  | single _ account => [account.seed]
  | gem _ mint => [ascii "gem_account", mint.toList]
  | voteAccount _ n => [ascii "vote_account", Bytes.bigEndian 4 n.toNat]
  | proposal _ n => [ascii "ingl_proposal", Bytes.bigEndian 4 n.toNat]
  | bufferAuthority program => [ascii "authority", program.toList]
  | upgradeAuthority program => [ascii "ingl_program_authority", program.toList]
  | programData program => [program.toList]
  | metadata mint => [ascii "metadata", WellKnown.tokenMetadata.toList, mint.toList]
  | edition mint =>
    [ascii "metadata", WellKnown.tokenMetadata.toList, mint.toList, ascii "edition"]
  | associatedToken wallet mint => [wallet.toList, WellKnown.token.toList, mint.toList]

def owner : Location → Address
  | single program _ => program
  | gem program _ => program
  | voteAccount program _ => program
  | proposal program _ => program
  | bufferAuthority program => program
  | upgradeAuthority program => program
  | programData _ => WellKnown.upgradeableLoader
  | metadata _ => WellKnown.tokenMetadata
  | edition _ => WellKnown.tokenMetadata
  | associatedToken _ _ => WellKnown.associatedToken

def address (l : Location) : Except Error Address :=
  (DerivedAddress.find l.seeds l.owner).map (·.1)

end Location

/-- The greatest of the numbers below `bound` whose address is the target. Addresses are asked for
one by one, downwards. -/
def searchBelow {m : Type → Type} [Monad m] (derive : UInt32 → m Address) (target : Address) :
    Nat → m (Option UInt32)
  | 0 => return none
  | n + 1 => do
    let address ← derive (UInt32.ofNat n)
    if address = target then return some (UInt32.ofNat n) else searchBelow derive target n

/-- The greatest number, up to and including the upper bound, whose address is the target. -/
def findNumeration {m : Type → Type} [Monad m] (derive : UInt32 → m Address) (target : Address)
    (upperBound : UInt32) : m (Option UInt32) :=
  searchBelow derive target (upperBound.toNat + 1)

end ValidatorClient.Program
