import ValidatorClient.BlockhashCache

namespace ValidatorClient

open Ledger

/-- A message with the block reference that it was compiled for, and a place for the signature of
each required signer. -/
structure Compiled where
  reference : BlockReference
  message : Message
  bytes : Bytes
  slots : List (Option Signature)
  deriving DecidableEq

/-- A transaction on its way from instructions to the node. The stage and the message are kept
apart, and each operation sets what it changes of them. -/
structure Assembler where
  feePayer : Address
  instructions : List Instruction
  stage : Stage
  compiled? : Option Compiled
  deriving DecidableEq

namespace Compiled

def isComplete (c : Compiled) : Bool := c.slots.all (·.isSome)

def missingSigners (c : Compiled) : List Address :=
  ((c.message.signerKeys.zip c.slots).filter (·.2.isNone)).map (·.1)

def slotOf (c : Compiled) (signer : Address) : Except ClientError Nat :=
  match c.message.signerKeys.idxOf? signer with
  | some slot => .ok slot
  | none => .error (.unknownSigner signer)

/-- Only a signature that verifies is kept. -/
def store (c : Compiled) (slot : Nat) (signer : Address) (signature : Signature) :
    Except ClientError Compiled :=
  if signer.verifies c.bytes signature then
    .ok { c with slots := c.slots.set slot (some signature) }
  else .error (.signerRejected (.wrongSignature signer))

def wire (c : Compiled) : Except ClientError Bytes :=
  let signatures := c.slots.filterMap id
  if signatures.length ≠ c.slots.length then
    .error (.incompleteSignatures (c.slots.length - signatures.length) c.slots.length)
  else (Wire.serialize signatures c.bytes).mapError .ledger

end Compiled

namespace Assembler

def start (feePayer : Address) : Assembler := ⟨feePayer, [], .building, none⟩

def expectStage (a : Assembler) (allowed : List Stage) (operation : String) :
    Except ClientError Unit :=
  if a.stage ∈ allowed then .ok () else .error (.invalidState (.wrongStage operation a.stage))

def add (a : Assembler) (instructions : List Instruction) : Except ClientError Assembler := do
  a.expectStage [.building] "add an instruction"
  return { a with instructions := a.instructions ++ instructions }

/-- The message can still be compiled, and there is something to compile. -/
def checkOpen (a : Assembler) (operation : String) : Except ClientError Unit := do
  a.expectStage [.building, .awaitingBlockReference] operation
  if a.instructions.isEmpty then throw (.invalidState .noInstructions)

def compile (a : Assembler) (reference : BlockReference) : Except ClientError Assembler := do
  let message ←
    (Message.compile a.instructions a.feePayer reference.blockhash).mapError .ledger
  let bytes ← message.serialize.mapError .ledger
  let slots := List.replicate message.signerKeys.length none
  return { a with
    compiled? := some ⟨reference, message, bytes, slots⟩
    stage := .collectingSignatures }

def setReference (a : Assembler) (reference : BlockReference) : Except ClientError Assembler := do
  a.checkOpen "set a block reference"
  a.compile reference

/-- Takes the block reference from the cache. Where that fails it can be tried again. -/
def fetchReference : Attempt (Assembler × BlockhashCache) BlockReference := do
  let (a, _) ← get
  Attempt.ofExcept (a.checkOpen "fetch a block reference")
  modify fun (a, cache) ↦ ({ a with stage := .awaitingBlockReference }, cache)
  let reference ← Attempt.onRight BlockhashCache.fetch
  let (a, cache) ← get
  let a ← Attempt.ofExcept (a.compile reference)
  set (a, cache)
  return reference

def compiled (a : Assembler) : Except ClientError Compiled :=
  match a.compiled? with
  | some c => .ok c
  | none => .error (.invalidState .notCompiled)

def requiredSigners (a : Assembler) : List Address :=
  (a.compiled?.map (·.message.signerKeys)).getD []

def missingSigners (a : Assembler) : List Address :=
  (a.compiled?.map Compiled.missingSigners).getD []

def signatures (a : Assembler) : List (Option Signature) := (a.compiled?.map (·.slots)).getD []

def messageBytes (a : Assembler) : Except ClientError Bytes := (·.bytes) <$> a.compiled

def slotOf (a : Assembler) (signer : Address) : Except ClientError Nat :=
  match a.compiled? with
  | some c => c.slotOf signer
  | none => .error (.unknownSigner signer)

/-- With the last signature that was missing the transaction is ready. -/
def storeSignature (a : Assembler) (slot : Nat) (signer : Address) (signature : Signature) :
    Except ClientError Assembler := do
  let c ← (← a.compiled).store slot signer signature
  return { a with
    compiled? := some c
    stage := if c.isComplete then .readyToSubmit else a.stage }

def addSignature (a : Assembler) (signer : Address) (signature : Signature) :
    Except ClientError Assembler := do
  a.expectStage [.collectingSignatures, .readyToSubmit] "add a signature"
  a.storeSignature (← a.slotOf signer) signer signature

structure Planned where
  slot : Nat
  signer : Signer

/-- Keys in memory come before devices, and each kind in the order of the places. -/
def Planned.isBefore (p q : Planned) : Bool :=
  match p.signer.kind, q.signer.kind with
  | .inMemory, .hardware => true
  | .hardware, .inMemory => false
  | _, _ => p.slot ≤ q.slot

def insertPlanned (p : Planned) : List Planned → List Planned
  | [] => [p]
  | q :: plan => if p.isBefore q then p :: q :: plan else q :: insertPlanned p plan

def sortPlan (plan : List Planned) : List Planned := plan.foldr insertPlanned []

def plan (slotOf : Address → Except ClientError Nat) (signers : List Signer) :
    Except ClientError (List Planned) := do
  let planned ← signers.mapM fun signer ↦ do return ⟨← slotOf signer.address, signer⟩
  return sortPlan planned

def signPlanned : List Planned → Attempt Assembler Unit
  | [] => return
  | p :: plan => do
    let bytes ← Attempt.ofExcept (← get).messageBytes
    match ← Attempt.ask (.sign p.signer bytes) with
    | .error e => throw e
    | .ok signature =>
      set (← Attempt.ofExcept ((← get).storeSignature p.slot p.signer.address signature))
      signPlanned plan

/-- Asks the signers one after the other. What has been signed stays if one of them fails. -/
def sign (signers : List Signer) : Attempt Assembler Unit := do
  let a ← get
  Attempt.ofExcept (a.expectStage [.collectingSignatures, .readyToSubmit] "sign")
  signPlanned (← Attempt.ofExcept (plan a.slotOf signers))

def serialize (a : Assembler) : Except ClientError Bytes := do (← a.compiled).wire

/-- Hands the transaction to the node, once, whatever it answers. -/
def submit : Attempt Assembler Submission := do
  let a ← get
  Attempt.ofExcept (a.expectStage [.collectingSignatures, .readyToSubmit] "submit")
  let wire ← Attempt.ofExcept a.serialize
  let c ← Attempt.ofExcept a.compiled
  set { a with stage := .submitted, compiled? := none }
  match ← Attempt.ask (.submit wire c.reference.lastValidHeight) with
  | .ok submission => return submission
  | .error e => throw (.rpc e)

end Assembler

end ValidatorClient
