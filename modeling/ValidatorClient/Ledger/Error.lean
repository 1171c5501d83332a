import ValidatorClient.Text.Base58

namespace ValidatorClient.Ledger

open ValidatorClient.Text

inductive AddressFault where
  | notBase58 (fault : Base58.Fault)
  | length (length : Nat)
  deriving DecidableEq, Repr

def AddressFault.message : AddressFault → String
  | .notBase58 fault => "base58 decode failed: " ++ fault.message
  | .length n => s!"expected 32 bytes, got {n}"

inductive SeedFault where
  | noRoomForBump (count : Nat)
  | tooMany (count : Nat)
  | tooLong (index length : Nat)
  | onCurve
  deriving DecidableEq, Repr

def SeedFault.message : SeedFault → String
  | .noRoomForBump count => s!"{count} seeds leaves no room for the bump (max 15)"
  | .tooMany count => s!"{count} seeds exceeds the maximum of 16"
  | .tooLong index length => s!"seed {index} is {length} bytes (max 32)"
  | .onCurve => "derived address lies on the ed25519 curve"

inductive Part where
  | accountKeys
  | instructions
  | instructionAccounts
  | instructionData
  | signatures
  deriving DecidableEq, Repr

def Part.name : Part → String
  | .accountKeys => "account keys"
  | .instructions => "instructions"
  | .instructionAccounts => "instruction accounts"
  | .instructionData => "instruction data bytes"
  | .signatures => "signatures"

inductive FormatFault where
  | tooMany (part : Part) (count : Nat)
  | countOverflow
  | countCutOff
  | countTooLong
  | signaturesCutOff
  deriving DecidableEq, Repr

def FormatFault.message : FormatFault → String
  | .tooMany part count => s!"too many {part.name}: {count}"
  | .countOverflow => "compact-u16 value overflow"
  | .countCutOff => "unexpected end of data while decoding compact-u16"
  | .countTooLong => "compact-u16 longer than 3 bytes"
  | .signaturesCutOff => "transaction too short: signature slots exceed length"

inductive Error where
  | invalidAddress (fault : AddressFault)
  | invalidSeeds (fault : SeedFault)
  | noDerivedAddress
  | tooManyAccounts (count : Nat)
  | format (fault : FormatFault)
  deriving DecidableEq, Repr

def Error.message : Error → String
  | .invalidAddress fault => "invalid address: " ++ fault.message
  | .invalidSeeds fault => "invalid seeds: " ++ fault.message
  | .noDerivedAddress => "no valid program address found for the given seeds"
  | .tooManyAccounts count =>
    s!"transaction build error: {count} accounts exceeds the limit of 255"
  | .format fault => "serialization error: " ++ fault.message

end ValidatorClient.Ledger
