import ValidatorClient.Process
import ValidatorClient.Signer.Hardware

namespace ValidatorClient

open Ledger

inductive SignerReference where
  | keyPairFile (path : String)
  | device (slot : UInt32)
  deriving DecidableEq, Repr

inductive LoadedSigner where
  | keyPair (k : KeyPair)
  | hardware (k : HardwareKey)

namespace LoadedSigner

def address : LoadedSigner → Address
  | keyPair k => k.address
  | hardware k => k.address

def kind : LoadedSigner → SignerKind
  | keyPair _ => .inMemory
  | hardware _ => .hardware

def signer (id : Nat) (s : LoadedSigner) : Signer := ⟨id, s.address, s.kind⟩

end LoadedSigner

namespace SignerReference

def deviceMark : List Char := "ledger://".toList

/-- What follows a mark of small letters, which may be written in either case. -/
def dropMark? : List Char → List Char → Option (List Char)
  | [], cs => some cs
  | _ :: _, [] => none
  | m :: ms, c :: cs => if c.toLower = m then dropMark? ms cs else none

def slotText? (s : String) : Option String := (dropMark? deviceMark s.toList).map String.ofList

def parse (text : String) : Except SignerInputFault SignerReference :=
  let text := Text.Blank.trim text
  if text.isEmpty then .error .emptyReference
  else
    match slotText? text with
    | none => .ok (.keyPairFile text)
    | some slot =>
      match Text.Numeral.parse 0x100000000 slot with
      | .ok n => .ok (.device (UInt32.ofNat n))
      | .error fault => .error (.badSlot slot fault)

variable {σ : Type}

def resolve (hasDevice : Bool) (files : FileTree) : SignerReference → Attempt σ LoadedSigner
  | keyPairFile path =>
    Attempt.ofExcept (((KeyPair.load files path).mapError .invalidSignerInput).map .keyPair)
  | device slot =>
    if hasDevice then do
      let path : DerivationPath := ⟨slot⟩
      let answer ← Attempt.ask (.deviceAddress path defaultDeviceTimeout)
      Attempt.ofExcept ((HardwareKey.connect path answer).map .hardware)
    else throw (.signerUnavailable .noTransport)

def load (hasDevice : Bool) (files : FileTree) (text : String) : Attempt σ LoadedSigner := do
  (← Attempt.ofExcept ((parse text).mapError .invalidSignerInput)).resolve hasDevice files

/-- An address by a reference to a device, as itself, or by a key pair file, tried in that order. -/
def loadAddress (hasDevice : Bool) (files : FileTree) (text : String) : Attempt σ Address := do
  let text := Text.Blank.trim text
  if (slotText? text).isSome then return (← load hasDevice files text).address
  else
    match Address.parse text with
    | .ok a => return a
    | .error _ =>
      match KeyPair.load files text with
      | .ok k => return k.address
      | .error cause => throw (.invalidSignerInput (.neither text cause))

end SignerReference

end ValidatorClient
