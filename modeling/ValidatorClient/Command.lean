import ValidatorClient.Context

namespace ValidatorClient

open Ledger Program

structure Registry where
  program : Address
  config : Address
  storage : Address
  deriving DecidableEq

inductive Execution where
  | config
  | upgrade (program buffer spill : Address)
  | voteAccount (voteAccount : Address) (newValidatorId : Option Address)
  deriving DecidableEq

inductive Command where
  | mintGem (mint : Signer) (logLevel : UInt8)
  | redeemGem (mint : Address) (logLevel : UInt8)
  | delegateGem (mint : Address) (logLevel : UInt8)
  | undelegateGem (mint : Address) (logLevel : UInt8)
  | withdrawRewards (account : NumberedAccount) (mints : List Address) (logLevel : UInt8)
  | processRewards (validatorId : Address) (account : NumberedAccount) (logLevel : UInt8)
  | initRebalance (account : NumberedAccount) (logLevel : UInt8)
  | finalizeRebalance (validatorId : Address) (logLevel : UInt8)
  | setUp (validatorId : Address) (setup : Setup) (registry : Registry)
  | uploadUris (uris : List String) (rarity logLevel : UInt8)
  | resetUris (logLevel : UInt8)
  | createVoteAccount (logLevel : UInt8)
  | openProposal (mint : Address) (proposal : Proposal) (logLevel : UInt8)
  | vote (account : NumberedAccount) (approve : Bool) (mints : List Address) (logLevel : UInt8)
  | finalizeProposal (account : NumberedAccount) (logLevel : UInt8)
  | executeProposal (account : NumberedAccount) (execution : Execution) (logLevel : UInt8)
  deriving DecidableEq

/-- An instruction and the accounts that it takes, in the order in which the program reads them. -/
structure Prepared where
  instruction : Program.Instruction
  accounts : List AccountMeta
  deriving DecidableEq

def teamAccount : Address :=
  .ofNat 0x06d3985e5dc1d98850cece90852d0ddbbaf78be5fdc428ad63fed90000000000

namespace Command

variable {σ : Type}

def checked (instruction : Except ArgumentFault Program.Instruction) :
    Attempt σ Program.Instruction :=
  Attempt.ofExcept (instruction.mapError fun fault ↦ .invalidArgument (.argument fault))

inductive Listed where
  | payer (a : Address)
  | writable (a : Address)
  | readonly (a : Address)
  | writableAt (l : Location)
  | readonlyAt (l : Location)

def Listed.account : Listed → Except ClientError AccountMeta
  | payer a => .ok (.writableSigner a)
  | writable a => .ok (.writable a)
  | readonly a => .ok (.readonly a)
  | writableAt l => AccountMeta.writable <$> locate l
  | readonlyAt l => AccountMeta.readonly <$> locate l

def listing (instruction : Program.Instruction) (accounts : List Listed) : Attempt σ Prepared :=
  Attempt.ofExcept do return ⟨instruction, ← accounts.mapM Listed.account⟩

def gemTriple (program owner mint : Address) : List Listed :=
  [.writableAt (.gem program mint), .writable mint, .writableAt (.associatedToken owner mint)]

def executionAccounts (single : SingleAccount → Location) : Execution → List Listed
  | .config => []
  | .upgrade program buffer spill =>
    [.writable program, .writable buffer, .writable spill, .writableAt (.programData program),
      .readonlyAt (.upgradeAuthority program), .readonly WellKnown.rent,
      .readonly WellKnown.clock, .readonly WellKnown.upgradeableLoader]
  | .voteAccount voteAccount newValidatorId =>
    [.readonlyAt (single .authorizedWithdrawer), .writable voteAccount] ++
      (match newValidatorId with
        | some id => [.readonly WellKnown.clock, .readonly id]
        | none => []) ++
      [.readonly WellKnown.vote]

/-- Checks the arguments, reads from the node what is needed, and lists the accounts. Votes and the
end of a proposal need its number first. -/
def prepare (ctx : Context) (payer : Address) : Command → Attempt σ Prepared
  | mintGem mint level => do
    let instruction ← checked (Checked.mintGem level)
    let single := Location.single ctx.program
    let collection ← Attempt.ofExcept (ctx.single .collectionMint)
    listing instruction
      [.payer payer, .payer mint.address, .writableAt (single .mintAuthority),
        .writableAt (.associatedToken payer mint.address), .readonly WellKnown.token,
        .readonly WellKnown.rent, .readonly WellKnown.system,
        .writableAt (.metadata mint.address), .writableAt (single .pool),
        .writableAt (.gem ctx.program mint.address), .writableAt (.edition collection),
        .writableAt (.edition mint.address), .writable collection,
        .writableAt (.metadata collection), .readonlyAt (single .config),
        .readonlyAt (single .uris), .writableAt (single .general),
        .readonly WellKnown.associatedToken, .readonly WellKnown.tokenMetadata]
  | redeemGem mint level => do
    let instruction ← checked (Checked.redeemGem level)
    let single := Location.single ctx.program
    let voteAccount ← ctx.fundsLocation mint
    let collection ← Attempt.ofExcept (ctx.single .collectionMint)
    listing instruction
      [.payer payer, .writable mint, .writableAt (single .pool),
        .writableAt (.associatedToken payer mint), .writableAt (.gem ctx.program mint),
        .writableAt (.metadata mint), .writableAt (.edition mint),
        .writableAt (.metadata collection), .readonly WellKnown.token,
        .readonlyAt (single .config), .writableAt (single .general), .writable voteAccount,
        .readonly WellKnown.tokenMetadata, .readonly WellKnown.system]
  | delegateGem mint level => do
    let instruction ← checked (Checked.delegateGem level)
    let single := Location.single ctx.program
    listing instruction
      [.payer payer, .readonlyAt (single .config), .readonly mint,
        .writableAt (.gem ctx.program mint), .readonlyAt (.associatedToken payer mint),
        .writableAt (single .general)]
  | undelegateGem mint level => do
    let instruction ← checked (Checked.undelegateGem level)
    let single := Location.single ctx.program
    let voteAccount ← ctx.fundsLocation mint
    listing instruction
      [.payer payer, .writable voteAccount, .readonlyAt (single .config), .readonly mint,
        .writableAt (.gem ctx.program mint), .readonlyAt (.associatedToken payer mint),
        .writableAt (single .general), .readonly WellKnown.system,
        .writableAt (single .authorizedWithdrawer), .readonly WellKnown.vote]
  | withdrawRewards account mints level => do
    let instruction ← checked (Checked.withdrawRewards mints.length level)
    let single := Location.single ctx.program
    let (voteAccount, _) ← ctx.resolveVoteAccount account
    listing instruction
      ([.payer payer, .writable voteAccount, .writableAt (single .general),
        .writableAt (single .authorizedWithdrawer)] ++
        mints.flatMap (fun mint ↦ (gemTriple ctx.program payer mint).reverse) ++
        [.readonly WellKnown.system, .readonly WellKnown.vote])
  | processRewards validatorId account level => do
    let instruction ← checked (Checked.processRewards level)
    let single := Location.single ctx.program
    let (voteAccount, _) ← ctx.resolveVoteAccount account
    listing instruction
      [.payer payer, .writable validatorId, .writable voteAccount,
        .writableAt (single .authorizedWithdrawer), .readonlyAt (single .config),
        .writableAt (single .general), .writable teamAccount, .readonly WellKnown.system,
        .readonly WellKnown.vote]
  | initRebalance account level => do
    let instruction ← checked (Checked.initRebalance level)
    let single := Location.single ctx.program
    let (voteAccount, _) ← ctx.resolveVoteAccount account
    listing instruction
      [.payer payer, .writableAt (single .temporaryStake), .writableAt (single .pool),
        .writableAt (single .general), .readonly WellKnown.clock, .readonly WellKnown.rent,
        .writableAt (single .stake), .readonlyAt (single .temporaryWithdraw),
        .readonly voteAccount, .readonly WellKnown.stakeHistory,
        .readonly WellKnown.stakeConfig, .readonly WellKnown.stake, .readonly WellKnown.system]
  | finalizeRebalance validatorId level => do
    let instruction ← checked (Checked.finalizeRebalance level)
    let single := Location.single ctx.program
    listing instruction
      [.payer payer, .writable validatorId, .writableAt (single .temporaryStake),
        .writableAt (single .pool), .writableAt (single .general), .readonly WellKnown.clock,
        .writableAt (single .stake), .readonlyAt (single .temporaryWithdraw),
        .readonly WellKnown.stakeHistory, .readonlyAt (single .config),
        .readonly WellKnown.stake]
  | setUp validatorId setup registry => do
    let instruction ← checked (Checked.setUp setup)
    let single := Location.single ctx.program
    let holder ← Attempt.ofExcept (ctx.single .collectionHolder)
    let collection ← Attempt.ofExcept (ctx.single .collectionMint)
    listing instruction
      [.payer payer, .writableAt (single .config), .writableAt (single .general),
        .writableAt (single .uris), .readonly WellKnown.rent, .readonly validatorId,
        .writable holder, .writable collection, .readonlyAt (single .mintAuthority),
        .writableAt (.associatedToken holder collection), .writableAt (.metadata collection),
        .writableAt (.edition collection), .readonly WellKnown.token,
        .readonly WellKnown.system, .writable registry.config, .readonly ctx.program,
        .writable teamAccount, .writable registry.storage, .readonly registry.program,
        .readonly WellKnown.associatedToken, .readonly WellKnown.tokenMetadata]
  | uploadUris uris rarity level => do
    let instruction ← checked (Checked.uploadUris uris rarity level)
    let single := Location.single ctx.program
    listing instruction
      [.payer payer, .readonlyAt (single .config), .writableAt (single .uris),
        .readonly WellKnown.system]
  | resetUris level => do
    let instruction ← checked (Checked.resetUris level)
    let single := Location.single ctx.program
    listing instruction
      [.payer payer, .readonlyAt (single .config), .writableAt (single .uris)]
  | createVoteAccount level => do
    let instruction ← checked (Checked.createVoteAccount level)
    let single := Location.single ctx.program
    let numeration := (← ctx.generalAccount).voteAccountCount
    listing instruction
      [.payer payer, .writableAt (.voteAccount ctx.program numeration),
        .readonly WellKnown.rent, .readonly WellKnown.clock, .readonly WellKnown.token,
        .writableAt (single .stake), .writableAt (single .config),
        .writableAt (single .general), .readonly WellKnown.vote, .readonly WellKnown.stake,
        .readonly WellKnown.system]
  | openProposal mint proposal level => do
    let instruction ← checked (Checked.openProposal proposal level)
    let single := Location.single ctx.program
    let voteAccount ← ctx.fundsLocation mint
    let numeration := (← ctx.generalAccount).proposalCount
    let buffer : List Listed :=
      match proposal with
      | .upgrade buffer _ => [.readonly buffer]
      | _ => []
    listing instruction
      ([.payer payer, .readonly voteAccount, .writableAt (.proposal ctx.program numeration),
        .writableAt (single .general), .readonly mint,
        .readonlyAt (.associatedToken payer mint), .writableAt (.gem ctx.program mint),
        .readonlyAt (single .config)] ++ buffer ++ [.readonly WellKnown.system])
  | vote account approve mints level => do
    let (proposal, numeration) ← ctx.resolveProposal account
    let instruction ← checked (Checked.vote numeration approve mints.length level)
    listing instruction
      ([.payer payer, .writable proposal] ++ mints.flatMap (gemTriple ctx.program payer) ++
        [.readonly WellKnown.system])
  | finalizeProposal account level => do
    let (proposal, numeration) ← ctx.resolveProposal account
    let instruction ← checked (Checked.finalizeProposal numeration level)
    let single := Location.single ctx.program
    listing instruction
      [.payer payer, .readonly WellKnown.rent, .readonly WellKnown.clock, .writable proposal,
        .writableAt (single .config), .writableAt (single .general)]
  | executeProposal account execution level => do
    let (proposal, numeration) ← ctx.resolveProposal account
    let instruction ← checked (Checked.executeProposal numeration level)
    let single := Location.single ctx.program
    listing instruction
      ([.payer payer, .readonly WellKnown.clock, .writable proposal,
        .writableAt (single .config), .writableAt (single .general)] ++
        executionAccounts single execution)

def signers (payer : Signer) : Command → List Signer
  | mintGem mint _ => [payer, mint]
  | _ => [payer]

def run (ctx : Context) (payer : Signer) (command : Command) :
    Attempt BlockhashCache Submission := do
  let prepared ← command.prepare ctx payer.address
  let data ← Attempt.ofExcept
    ((Program.Instruction.layout.encode prepared.instruction).mapError .codec)
  ctx.send [⟨ctx.program, prepared.accounts, data⟩] (command.signers payer)

end Command

end ValidatorClient
