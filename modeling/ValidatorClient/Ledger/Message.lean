import ValidatorClient.Ledger.Address
import ValidatorClient.Ledger.CompactCount

namespace ValidatorClient.Ledger

structure AccountMeta where
  address : Address
  isSigner : Bool
  isWritable : Bool
  deriving DecidableEq

namespace AccountMeta

def writable (address : Address) : AccountMeta := ⟨address, false, true⟩

def readonly (address : Address) : AccountMeta := ⟨address, false, false⟩

def writableSigner (address : Address) : AccountMeta := ⟨address, true, true⟩

def readonlySigner (address : Address) : AccountMeta := ⟨address, true, false⟩

end AccountMeta

structure Instruction where
  program : Address
  accounts : List AccountMeta
  data : Bytes
  deriving DecidableEq

abbrev Blockhash := FixedBytes 32

/-- An instruction whose program and accounts are places in the list of a message's keys. -/
structure CompiledInstruction where
  programIndex : UInt8
  accountIndices : List UInt8
  data : Bytes
  deriving DecidableEq

/-- What the signers of a transaction sign. First come the keys that sign, of them the read-only
ones last, then the others, of them too the read-only ones last. -/
structure Message where
  requiredSignatures : UInt8
  readonlySigned : UInt8
  readonlyUnsigned : UInt8
  accountKeys : List Address
  blockhash : Blockhash
  instructions : List CompiledInstruction
  deriving DecidableEq

namespace Message

/-- Adds an account at the end, or its rights to those that it has. -/
def merge (a : AccountMeta) : List AccountMeta → List AccountMeta
  | [] => [a]
  | b :: bs =>
    if b.address = a.address then
      ⟨b.address, b.isSigner || a.isSigner, b.isWritable || a.isWritable⟩ :: bs
    else b :: merge a bs

/-- All occurrences of accounts in order. The fee payer comes first, as a writable signer, and the
program of an instruction after its accounts, without rights. -/
def occurrences (instructions : List Instruction) (feePayer : Address) : List AccountMeta :=
  .writableSigner feePayer :: instructions.flatMap fun i ↦ i.accounts ++ [.readonly i.program]

def collect (metas : List AccountMeta) : List AccountMeta :=
  metas.foldl (fun entries a ↦ merge a entries) []

/-- The accounts by class, in each class in the order in which they came. -/
def arrange (entries : List AccountMeta) : List AccountMeta :=
  entries.filter (fun a ↦ a.isSigner && a.isWritable) ++
  entries.filter (fun a ↦ a.isSigner && !a.isWritable) ++
  entries.filter (fun a ↦ !a.isSigner && a.isWritable) ++
  entries.filter (fun a ↦ !a.isSigner && !a.isWritable)

def compileInstruction (keys : List Address) (i : Instruction) : CompiledInstruction where
  programIndex := UInt8.ofNat (keys.idxOf i.program)
  accountIndices := i.accounts.map fun a ↦ UInt8.ofNat (keys.idxOf a.address)
  data := i.data

def compile (instructions : List Instruction) (feePayer : Address) (blockhash : Blockhash) :
    Except Error Message :=
  let entries := arrange (collect (occurrences instructions feePayer))
  let keys := entries.map (·.address)
  if 255 < entries.length then .error (.tooManyAccounts entries.length)
  else .ok {
    requiredSignatures := UInt8.ofNat (entries.countP (·.isSigner))
    readonlySigned := UInt8.ofNat (entries.countP fun a ↦ a.isSigner && !a.isWritable)
    readonlyUnsigned := UInt8.ofNat (entries.countP fun a ↦ !a.isSigner && !a.isWritable)
    accountKeys := keys
    blockhash := blockhash
    instructions := instructions.map (compileInstruction keys) }

def signerKeys (m : Message) : List Address := m.accountKeys.take m.requiredSignatures.toNat

def serializeInstruction (i : CompiledInstruction) : Except FormatFault Bytes := do
  let accounts ← CompactCount.ofPart .instructionAccounts i.accountIndices.length
  let data ← CompactCount.ofPart .instructionData i.data.length
  return i.programIndex :: accounts ++ i.accountIndices ++ data ++ i.data

def serializeParts (m : Message) : Except FormatFault Bytes := do
  let keys ← CompactCount.ofPart .accountKeys m.accountKeys.length
  let count ← CompactCount.ofPart .instructions m.instructions.length
  let instructions ← m.instructions.mapM serializeInstruction
  return [m.requiredSignatures, m.readonlySigned, m.readonlyUnsigned] ++
    keys ++ m.accountKeys.flatMap Address.toList ++ m.blockhash.toList ++
    count ++ instructions.flatten

def serialize (m : Message) : Except Error Bytes := m.serializeParts.mapError .format

end Message

end ValidatorClient.Ledger
