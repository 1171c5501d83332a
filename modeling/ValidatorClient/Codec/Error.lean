import ValidatorClient.Text.Utf8
import ValidatorClient.Text.Hex

namespace ValidatorClient.Codec

open ValidatorClient.Text

inductive Error where
  | truncated (needed remaining : Nat)
  | boolByte (byte : UInt8)
  | presenceByte (byte : UInt8)
  | trailingBytes (count : Nat)
  | notUtf8 (fault : Utf8.Fault)
  | unknownVariant (typeName : String) (discriminant : UInt8)
  | duplicateKey (index : Nat)
  | lengthOverflow (length : Nat)
  deriving DecidableEq, Repr

def Error.message : Error → String
  | .truncated needed remaining => s!"truncated input: needed {needed} bytes, {remaining} remaining"
  | .boolByte byte => "malformed encoding: bool byte 0x" ++ Hex.encodeByte byte
  | .presenceByte byte => "malformed encoding: option presence byte 0x" ++ Hex.encodeByte byte
  | .trailingBytes count => s!"malformed encoding: {count} trailing bytes after value"
  | .notUtf8 fault => "invalid encoding: string is not UTF-8: " ++ fault.message
  | .unknownVariant typeName discriminant => s!"unknown variant {discriminant} for {typeName}"
  | .duplicateKey index => s!"duplicate map key at entry {index}"
  | .lengthOverflow length => s!"length {length} does not fit a 4-byte prefix"

end ValidatorClient.Codec
