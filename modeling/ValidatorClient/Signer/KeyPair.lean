import ValidatorClient.FileTree
import ValidatorClient.Json.Value
import ValidatorClient.Json.Written
import ValidatorClient.Ledger.Wire
import ValidatorClient.Text.Numeral

namespace ValidatorClient

open Ledger

inductive SignerInputFault where
  | keyPairLength (length : Nat)
  | keyPairMismatch
  | unreadable (path : String) (fault : FileTree.Fault)
  | notKeyPair (path : String)
  | emptyReference
  | badSlot (text : String) (fault : Text.Numeral.Fault)
  | neither (input : String) (cause : SignerInputFault)
  deriving DecidableEq, Repr

namespace SignerInputFault

def label : String := "invalid signer input: "

def message : SignerInputFault → String
  | keyPairLength n => s!"keypair must be 64 bytes, got {n}"
  | keyPairMismatch => "keypair public key does not match its secret key"
  | unreadable path fault => "read " ++ path ++ ": " ++ fault.message
  | notKeyPair path => path ++ " is not a keypair file: " ++ Json.Value.refusal
  | emptyReference => "empty signer reference"
  | badSlot text fault => "bad device slot " ++ Text.Quoted.string text ++ ": " ++ fault.message
  | neither input cause =>
    Text.Quoted.string input ++ " is neither an address nor a keypair file (" ++ label ++
      cause.message ++ ")"

end SignerInputFault

inductive KeepFault where
  | save (fault : FileTree.SaveFault)
  | mode (path : String) (fault : FileTree.Fault)
  deriving DecidableEq, Repr

def KeepFault.message : KeepFault → String
  | .save fault => fault.message
  | .mode path fault => "chmod " ++ path ++ ": " ++ fault.message

/-- A secret and the public key that belongs to it. -/
structure KeyPair where
  secret : Ed25519.Secret
  publicKey : Ed25519.PublicKey
  publicKey_eq : publicKey = Ed25519.publicKey secret

namespace KeyPair

def ofSecret (secret : Ed25519.Secret) : KeyPair := ⟨secret, Ed25519.publicKey secret, rfl⟩

def address (k : KeyPair) : Address := ⟨k.publicKey⟩

def sign (k : KeyPair) (message : Bytes) : Signature := Ed25519.sign k.secret message

def bytes (k : KeyPair) : Bytes := k.secret.toList ++ k.publicKey.toList

/-- The public half has to belong to the secret half. -/
def ofBytes (bytes : Bytes) : Except SignerInputFault KeyPair :=
  match FixedBytes.ofList? 32 (bytes.take 32), FixedBytes.ofList? 32 (bytes.drop 32) with
  | some secret, some publicKey =>
    if h : publicKey = Ed25519.publicKey secret then .ok ⟨secret, publicKey, h⟩
    else .error .keyPairMismatch
  | _, _ => .error (.keyPairLength bytes.length)

def load (files : FileTree) (path : String) : Except SignerInputFault KeyPair :=
  match files.readText path with
  | .error fault => .error (.unreadable path fault)
  | .ok text =>
    match (Json.Value.parse? text).bind Json.Value.bytes? with
    | none => .error (.notKeyPair path)
    | some bytes => ofBytes bytes

/-- Only the owner may read or write the file. -/
def save (k : KeyPair) (path : String) : Change FileTree KeepFault Unit := do
  ExceptT.adapt .save (FileTree.save path (Text.Utf8.encode (Json.bytesText k.bytes)))
  ExceptT.adapt (.mode path) (FileTree.setMode path 0o600)

def display (k : KeyPair) : String :=
  "KeypairSigner \x7b address: " ++ k.address.display ++ ", .. \x7d"

end KeyPair

end ValidatorClient
