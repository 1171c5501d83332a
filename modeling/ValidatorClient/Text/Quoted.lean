import ValidatorClient.Text.Hex
import ValidatorClient.Text.Printable

namespace ValidatorClient.Text

namespace Quoted

def escape (mark c : Char) : String :=
  if c = '\x00' then "\\0"
  else if c = '\t' then "\\t"
  else if c = '\r' then "\\r"
  else if c = '\n' then "\\n"
  else if c = '\\' then "\\\\"
  else if c = mark then String.ofList ['\\', c]
  else if Printable.isPrintable c then c.toString
  else "\\u\x7b" ++ Hex.encodeNat c.toNat ++ "\x7d"

def char (c : Char) : String := "'" ++ escape '\'' c ++ "'"

def string (s : String) : String :=
  "\"" ++ String.join (s.toList.map (escape '"')) ++ "\""

end Quoted

/-- A byte that is no digit is shown as the character of that number. -/
def Hex.Fault.message : Hex.Fault → String
  | .oddLength => "Odd number of digits"
  | .invalid byte position =>
    "Invalid character " ++ Quoted.char (Char.ofNat byte.toNat) ++ s!" at position {position}"

end ValidatorClient.Text
