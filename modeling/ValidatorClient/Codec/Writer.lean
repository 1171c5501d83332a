import ValidatorClient.Change
import ValidatorClient.Codec.Error

namespace ValidatorClient.Codec

/-- A write adds bytes to those written so far, which stay as they are. What it has added before it
fails stays too. -/
abbrev Write := Change Bytes Error Unit

namespace Write

def fail (e : Error) : Write := fun out ↦ (.error e, out)

def push (bytes : Bytes) : Write := fun out ↦ (.ok (), out ++ bytes)

def count (n : Nat) : Write :=
  if n < 0x100000000 then push (Bytes.littleEndian 4 n) else fail (.lengthOverflow n)

def output (w : Write) : Except Error Bytes :=
  match w.apply [] with
  | (.ok (), out) => .ok out
  | (.error e, _) => .error e

end Write

end ValidatorClient.Codec
