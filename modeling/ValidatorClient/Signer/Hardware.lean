import ValidatorClient.Error

namespace ValidatorClient

open Ledger

def defaultDeviceTimeout : Nat := 120000

structure HardwareKey where
  path : DerivationPath
  address : Address
  timeout : Nat
  deriving DecidableEq

namespace HardwareKey

def connect (path : DerivationPath) :
    Option (Except DeviceError Address) → Except ClientError HardwareKey
  | some (.ok address) => .ok ⟨path, address, defaultDeviceTimeout⟩
  | some (.error e) => .error (.ofDevice e)
  | none => .error (.signerUnavailable (.noAddress path))

def signature (k : HardwareKey) :
    Option (Except DeviceError Signature) → Except ClientError Signature
  | some (.ok s) => .ok s
  | some (.error e) => .error (.ofDevice e)
  | none => .error (.signerUnavailable (.noAnswer k.timeout))

def display (k : HardwareKey) : String :=
  "HardwareSigner \x7b address: " ++ k.address.display ++ ", path: " ++
    Text.Quoted.string k.path.toString ++ ", timeout: " ++ Text.Duration.render k.timeout ++
    ", .. \x7d"

end HardwareKey

end ValidatorClient
