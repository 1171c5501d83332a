import ValidatorClient.Assembler
import ValidatorClient.Program.Checked
import ValidatorClient.Program.ComputeBudget
import ValidatorClient.Program.Resolve

namespace ValidatorClient

open Ledger Program

inductive NumberedAccount where
  | numeration (n : UInt32)
  | address (a : Address)
  deriving DecidableEq

/-- What all commands share: the deployment, and what is asked of the compute budget. -/
structure Context where
  program : Address
  heapFrame : Option UInt32
  unitLimit : Option UInt32
  unitPrice : Option UInt64
  deriving DecidableEq

namespace Context

def budget (ctx : Context) : List Ledger.Instruction :=
  (ctx.heapFrame.map ComputeBudget.heapFrame).toList ++
  (ctx.unitLimit.map ComputeBudget.unitLimit).toList ++
  (ctx.unitPrice.map ComputeBudget.unitPrice).toList

def single (ctx : Context) (account : SingleAccount) : Except ClientError Address :=
  locate (.single ctx.program account)

def gem (ctx : Context) (mint : Address) : Except ClientError Address :=
  locate (.gem ctx.program mint)

variable {σ : Type}

def accountData (kind : String) (address : Address) : Attempt σ Bytes := do
  match ← Attempt.ask (.account address) with
  | .error e => throw (.rpc e)
  | .ok none => throw (.notFound (.account kind address))
  | .ok (some data) => return data

def generalAccount (ctx : Context) : Attempt σ GeneralAccount := do
  let address ← Attempt.ofExcept (ctx.single .general)
  let data ← accountData "general" address
  Attempt.ofExcept ((readAccount GeneralAccount.layout data).mapError .accountData)

/-- The vote account to which a gem is delegated. -/
def fundsLocation (ctx : Context) (mint : Address) : Attempt σ Address := do
  let address ← Attempt.ofExcept (ctx.gem mint)
  let data ← accountData "gem" address
  Attempt.ofExcept ((readAddress data fundsLocationOffset).mapError .accountData)

/-- Only the search for an address needs the counter of the general account. -/
def resolveNumbered (ctx : Context) (location : UInt32 → Location)
    (counter : GeneralAccount → UInt32) : NumberedAccount → Attempt σ (Address × UInt32)
  | .numeration n => Attempt.ofExcept (resolve location none (some n) 0)
  | .address a => do
    let upperBound := counter (← ctx.generalAccount)
    Attempt.ofExcept (resolve location (some a) none upperBound)

def resolveVoteAccount (ctx : Context) : NumberedAccount → Attempt σ (Address × UInt32) :=
  ctx.resolveNumbered (.voteAccount ctx.program) (·.voteAccountCount)

def resolveProposal (ctx : Context) : NumberedAccount → Attempt σ (Address × UInt32) :=
  ctx.resolveNumbered (.proposal ctx.program) (·.proposalCount)

/-- Assembles, signs and submits. The first signer pays. A reference with which the node did not
take the transaction does not stay in the cache. -/
def send (ctx : Context) (instructions : List Ledger.Instruction) (signers : List Signer) :
    Attempt BlockhashCache Submission := do
  match signers with
  | [] => throw (.invalidArgument .noFeePayer)
  | payer :: _ =>
    let assembler ← Attempt.ofExcept
      ((Assembler.start payer.address).add (ctx.budget ++ instructions))
    Attempt.withOwn assembler do
      discard Assembler.fetchReference
      Attempt.onLeft (Assembler.sign signers)
      tryCatch (Attempt.onLeft Assembler.submit) fun e ↦ do
        match e with
        | .rpc _ => modify fun (a, cache) ↦ (a, cache.invalidate)
        | _ => pure ()
        throw e

end Context

end ValidatorClient
