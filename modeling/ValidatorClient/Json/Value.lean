import ValidatorClient.Json.Token

namespace ValidatorClient.Json

/-- An object keeps all its entries in order, also those with a key that came before. -/
inductive Value where
  | null
  | bool (b : Bool)
  | natural (n : Nat)
  | otherNumber
  | text (value : Option String)
  | array (items : List Value)
  | object (entries : List (Option String × Value))

namespace Value

/-- A container that has been opened, last item first. In an object the key of the next value has
been read. -/
inductive Opened where
  | array (items : List Value)
  | object (entries : List (Option String × Value)) (key : Option String)

/-- What the next token has to be. Right after it has been opened a container may be closed. -/
inductive Due where
  | value
  | itemOrEnd
  | keyOrEnd (entries : List (Option String × Value))
  | key (entries : List (Option String × Value))
  | colon (entries : List (Option String × Value)) (key : Option String)
  | commaOrEnd (last : Value)

def scalar? : Token → Option Value
  | .null => some .null
  | .bool b => some (.bool b)
  | .natural n => some (.natural n)
  | .otherNumber => some .otherNumber
  | .text value => some (.text value)
  | _ => none

/-- What follows a token, with the containers that are then open, innermost first. -/
def step? (opened : List Opened) (due : Due) (token : Token) : Option (List Opened × Due) :=
  match due, token with
  | .value, .openBracket => some (.array [] :: opened, .itemOrEnd)
  | .value, .openBrace => some (opened, .keyOrEnd [])
  | .value, token => (scalar? token).map fun v ↦ (opened, .commaOrEnd v)
  | .itemOrEnd, .closeBracket => some (opened.drop 1, .commaOrEnd (.array []))
  | .itemOrEnd, .openBracket => some (.array [] :: opened, .itemOrEnd)
  | .itemOrEnd, .openBrace => some (opened, .keyOrEnd [])
  | .itemOrEnd, token => (scalar? token).map fun v ↦ (opened, .commaOrEnd v)
  | .keyOrEnd entries, .closeBrace => some (opened, .commaOrEnd (.object entries.reverse))
  | .keyOrEnd entries, .text key => some (opened, .colon entries key)
  | .key entries, .text key => some (opened, .colon entries key)
  | .colon entries key, .colon => some (.object entries key :: opened, .value)
  | .commaOrEnd v, token =>
    match opened, token with
    | .array items :: opened, .comma => some (.array (v :: items) :: opened, .value)
    | .array items :: opened, .closeBracket =>
      some (opened, .commaOrEnd (.array (v :: items).reverse))
    | .object entries key :: opened, .comma => some (opened, .key ((key, v) :: entries))
    | .object entries key :: opened, .closeBrace =>
      some (opened, .commaOrEnd (.object ((key, v) :: entries).reverse))
    | _, _ => none
  | _, _ => none

def build? (opened : List Opened) (due : Due) : List Token → Option Value
  | [] =>
    match opened, due with
    | [], .commaOrEnd v => some v
    | _, _ => none
  | token :: tokens =>
    match step? opened due token with
    | some (opened, due) => build? opened due tokens
    | none => none

def parse? (s : String) : Option Value := do build? [] .value (← Token.ofText? s)

def bytes? : Value → Option Bytes
  | .array items => items.mapM fun
    | .natural n => if n < 256 then some (UInt8.ofNat n) else none
    | _ => none
  | _ => none

def texts? : Value → Option (List (String × String))
  | .object entries => entries.mapM fun
    | (some key, .text (some value)) => some (key, value)
    | _ => none
  | _ => none

def refusal : String := "<json>"

def optionalText? : Value → Option (Option String)
  | .null => some none
  | .text (some s) => some (some s)
  | _ => none

end Value

end ValidatorClient.Json
