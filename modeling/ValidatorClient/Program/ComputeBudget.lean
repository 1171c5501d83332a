import ValidatorClient.Ledger.Message
import ValidatorClient.Ledger.WellKnown

namespace ValidatorClient.Program.ComputeBudget

open Ledger

def instruction (variant : UInt8) (argument : Bytes) : Instruction :=
  ⟨WellKnown.computeBudget, [], variant :: argument⟩

def heapFrame (bytes : UInt32) : Instruction := instruction 1 (Bytes.littleEndian 4 bytes.toNat)

def unitLimit (units : UInt32) : Instruction := instruction 2 (Bytes.littleEndian 4 units.toNat)

def unitPrice (price : UInt64) : Instruction := instruction 3 (Bytes.littleEndian 8 price.toNat)

end ValidatorClient.Program.ComputeBudget
