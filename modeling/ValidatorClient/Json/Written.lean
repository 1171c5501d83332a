import ValidatorClient.Text.Hex

namespace ValidatorClient.Json

/-- Only quotes, backslashes and controls are escaped. -/
def escape (c : Char) : List Char :=
  if c = '"' then ['\\', '"']
  else if c = '\\' then ['\\', '\\']
  else if c = '\x08' then ['\\', 'b']
  else if c = '\x0c' then ['\\', 'f']
  else if c = '\n' then ['\\', 'n']
  else if c = '\r' then ['\\', 'r']
  else if c = '\t' then ['\\', 't']
  else if c.toNat < 0x20 then
    ['\\', 'u', '0', '0', Text.Hex.digit (c.toNat / 16), Text.Hex.digit (c.toNat % 16)]
  else [c]

def quote (s : String) : String := String.ofList ('"' :: s.toList.flatMap escape ++ ['"'])

def bytesText (bytes : Bytes) : String :=
  "[" ++ String.intercalate "," (bytes.map fun b ↦ Nat.repr b.toNat) ++ "]"

def textsText (entries : List (String × String)) : String :=
  if entries.isEmpty then "\x7b\x7d"
  else
    "\x7b\n" ++ String.intercalate ",\n"
      (entries.map fun (key, value) ↦ "  " ++ quote key ++ ": " ++ quote value) ++ "\n\x7d"

end ValidatorClient.Json
