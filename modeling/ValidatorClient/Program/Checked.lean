import ValidatorClient.Program.Instruction

namespace ValidatorClient.Program.Checked

def withLogLevel (instruction : UInt8 → Instruction) (level : UInt8) :
    Except ArgumentFault Instruction := do
  checkLogLevel level
  return instruction level

def mintGem : UInt8 → Except ArgumentFault Instruction := withLogLevel .mintGem

def redeemGem : UInt8 → Except ArgumentFault Instruction := withLogLevel .redeemGem

def processRewards : UInt8 → Except ArgumentFault Instruction := withLogLevel .processRewards

def initRebalance : UInt8 → Except ArgumentFault Instruction := withLogLevel .initRebalance

def finalizeRebalance : UInt8 → Except ArgumentFault Instruction := withLogLevel .finalizeRebalance

def resetUris : UInt8 → Except ArgumentFault Instruction := withLogLevel .resetUris

def undelegateGem : UInt8 → Except ArgumentFault Instruction := withLogLevel .undelegateGem

def delegateGem : UInt8 → Except ArgumentFault Instruction := withLogLevel .delegateGem

def createVoteAccount : UInt8 → Except ArgumentFault Instruction := withLogLevel .createVoteAccount

def finalizeProposal (numeration : UInt32) : UInt8 → Except ArgumentFault Instruction :=
  withLogLevel (.finalizeProposal numeration)

def executeProposal (numeration : UInt32) : UInt8 → Except ArgumentFault Instruction :=
  withLogLevel (.executeProposal numeration)

def setUp (setup : Setup) : Except ArgumentFault Instruction := do
  setup.check
  return .setUp setup

def withdrawRewards (count : Nat) (level : UInt8) : Except ArgumentFault Instruction := do
  checkLogLevel level
  if count = 0 then throw (.noGems "nft_withdraw")
  if 0x100000000 ≤ count then throw (.doesNotFit "cnt" count)
  return .withdrawRewards (UInt32.ofNat count) level

def uploadUris (uris : List String) (rarity level : UInt8) : Except ArgumentFault Instruction := do
  checkLogLevel level
  if uris.isEmpty then throw .noUris
  if 0x100000000 ≤ uris.length then throw (.doesNotFit "uris length" uris.length)
  return .uploadUris uris rarity level

def openProposal (proposal : Proposal) (level : UInt8) : Except ArgumentFault Instruction := do
  checkLogLevel level
  proposal.check
  return .openProposal proposal level

def vote (numeration : UInt32) (approve : Bool) (count : Nat) (level : UInt8) :
    Except ArgumentFault Instruction := do
  checkLogLevel level
  if count = 0 then throw (.noGems "vote_governance")
  if 0x100 ≤ count then throw (.doesNotFit "cnt" count)
  return .vote numeration approve (UInt8.ofNat count) level

end ValidatorClient.Program.Checked
