import ValidatorClient.Ledger.Message

namespace ValidatorClient

/-- A recent blockhash, and the last height of a block that may still hold a transaction with it. -/
structure BlockReference where
  blockhash : Ledger.Blockhash
  lastValidHeight : UInt64
  deriving DecidableEq

/-- What a node says of a transaction that it has accepted. -/
structure Submission where
  signature : String
  deriving DecidableEq

inductive RpcError where
  | transport (reason : String)
  | server (code : Int) (reason : String)
  deriving DecidableEq, Repr

def RpcError.message : RpcError → String
  | .transport reason => "rpc transport error: " ++ reason
  | .server code reason => s!"rpc server error {code}: {reason}"

end ValidatorClient
