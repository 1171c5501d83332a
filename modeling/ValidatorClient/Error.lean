import ValidatorClient.Network
import ValidatorClient.Program.Account
import ValidatorClient.Signer.Device
import ValidatorClient.Signer.KeyPair
import ValidatorClient.Text.Duration

namespace ValidatorClient

open Ledger

inductive Stage where
  | building
  | awaitingBlockReference
  | collectingSignatures
  | readyToSubmit
  | submitted
  deriving DecidableEq, Repr

def Stage.name : Stage → String
  | .building => "building"
  | .awaitingBlockReference => "awaiting block reference"
  | .collectingSignatures => "collecting signatures"
  | .readyToSubmit => "ready to submit"
  | .submitted => "submitted"

inductive CallFault where
  | argument (fault : Program.ArgumentFault)
  | keep (fault : KeepFault)
  | noFeePayer
  | noNumberedAccount
  deriving DecidableEq, Repr

def CallFault.message : CallFault → String
  | .argument fault => fault.message
  | .keep fault => fault.message
  | .noFeePayer => "a fee payer is required"
  | .noNumberedAccount => "either a numeration or an account address is required"

inductive UnavailableFault where
  | noTransport
  | noAddress (path : DerivationPath)
  | noAnswer (milliseconds : Nat)
  | device (error : DeviceError)
  deriving DecidableEq, Repr

def UnavailableFault.message : UnavailableFault → String
  | .noTransport => "no hardware device transport configured"
  | .noAddress path => "no address from device at " ++ path.toString
  | .noAnswer milliseconds => "device did not answer within " ++ Text.Duration.render milliseconds
  | .device error => error.message

inductive RejectedFault where
  | device
  | wrongSignature (signer : Address)
  deriving DecidableEq

def RejectedFault.message : RejectedFault → String
  | .device => DeviceError.rejected.message
  | .wrongSignature signer =>
    "signature from " ++ signer.toString ++ " does not verify against the message"

inductive NotFoundFault where
  | account (kind : String) (address : Address)
  | numeration (upperBound : UInt32) (address : Address)
  deriving DecidableEq

def NotFoundFault.message : NotFoundFault → String
  | .account kind address => kind ++ " account " ++ address.toString
  | .numeration upperBound address =>
    s!"no numeration in 0..={upperBound} derives " ++ address.toString

inductive StateFault where
  | wrongStage (operation : String) (stage : Stage)
  | noInstructions
  | notCompiled
  deriving DecidableEq, Repr

def StateFault.message : StateFault → String
  | .wrongStage operation stage => "cannot " ++ operation ++ " while " ++ stage.name
  | .noInstructions => "transaction has no instructions"
  | .notCompiled => "message is not compiled yet"

inductive ConfigFault where
  | noHome
  | save (fault : FileTree.SaveFault)
  | unknownCluster (name : String)
  deriving DecidableEq, Repr

def ConfigFault.message : ConfigFault → String
  | .noHome => "cannot locate the home directory"
  | .save fault => fault.message
  | .unknownCluster name => "unknown cluster " ++ Text.Quoted.string name

inductive ClientError where
  | invalidArgument (fault : CallFault)
  | invalidSignerInput (fault : SignerInputFault)
  | signerUnavailable (fault : UnavailableFault)
  | signerRejected (fault : RejectedFault)
  | incompleteSignatures (missing required : Nat)
  | notFound (fault : NotFoundFault)
  | unknownSigner (address : Address)
  | invalidState (fault : StateFault)
  | config (fault : ConfigFault)
  | accountData (fault : Program.AccountFault)
  | codec (error : Codec.Error)
  | ledger (error : Ledger.Error)
  | rpc (error : RpcError)
  deriving DecidableEq

namespace ClientError

def message : ClientError → String
  | invalidArgument fault => "invalid argument: " ++ fault.message
  | invalidSignerInput fault => SignerInputFault.label ++ fault.message
  | signerUnavailable fault => "signer unavailable: " ++ fault.message
  | signerRejected fault => "signer rejected: " ++ fault.message
  | incompleteSignatures missing required =>
    s!"incomplete signatures: {missing} of {required} required signatures missing"
  | notFound fault => "not found: " ++ fault.message
  | unknownSigner address => address.toString ++ " is not a required signer of this transaction"
  | invalidState fault => "invalid state: " ++ fault.message
  | config fault => "config error: " ++ fault.message
  | accountData fault => "account data error: " ++ fault.message
  | codec error => "codec error: " ++ error.message
  | ledger error => "ledger error: " ++ error.message
  | rpc error => error.message

/-- Only a refusal on the device counts as one; any other failure means that it cannot be used. -/
def ofDevice : DeviceError → ClientError
  | .rejected => signerRejected .device
  | e => signerUnavailable (.device e)

end ClientError

end ValidatorClient
