import ValidatorClient.Text.Hex

namespace ValidatorClient.Json

/-- A text that escapes half of a surrogate pair has no value. -/
inductive Token where
  | openBrace
  | closeBrace
  | openBracket
  | closeBracket
  | comma
  | colon
  | null
  | bool (b : Bool)
  | natural (n : Nat)
  | otherNumber
  | text (value : Option String)
  deriving DecidableEq

namespace Token

inductive Numeral where
  | empty
  | zero
  | whole (n : Nat)
  | point
  | fraction
  | exponent
  | exponentSign
  | exponentDigits

/-- How far a text has been read, last character first. -/
structure Written where
  reversed : List Char
  isValid : Bool
  highSurrogate : Option Nat

inductive State where
  | between
  | word (rest : List Char) (token : Token)
  | numeral (negative : Bool) (part : Numeral)
  | text (written : Written)
  | escape (written : Written)
  | unit (written : Written) (due value : Nat)

namespace Written

def empty : Written := ⟨[], true, none⟩

def push (w : Written) (c : Char) : Written :=
  ⟨c :: w.reversed, w.isValid && w.highSurrogate.isNone, none⟩

/-- Adds a unit of sixteen bits. The two halves of a surrogate pair give one character. -/
def pushUnit (w : Written) (n : Nat) : Written :=
  if 0xDC00 ≤ n ∧ n < 0xE000 then
    match w.highSurrogate with
    | some high =>
      ⟨Char.ofNat (0x10000 + (high - 0xD800) * 0x400 + (n - 0xDC00)) :: w.reversed, w.isValid, none⟩
    | none => { w with isValid := false }
  else if 0xD800 ≤ n ∧ n < 0xDC00 then
    ⟨w.reversed, w.isValid && w.highSurrogate.isNone, some n⟩
  else w.push (Char.ofNat n)

def value (w : Written) : Option String :=
  if w.isValid && w.highSurrogate.isNone then some (String.ofList w.reversed.reverse) else none

end Written

def Numeral.next? (part : Numeral) (c : Char) : Option Numeral :=
  let isExponent := c = 'e' ∨ c = 'E'
  match part with
  | empty =>
    if c = '0' then some zero else if c.isDigit then some (whole (c.toNat - 0x30)) else none
  | zero => if c = '.' then some point else if isExponent then some exponent else none
  | whole n =>
    if c.isDigit then some (whole (10 * n + (c.toNat - 0x30)))
    else if c = '.' then some point
    else if isExponent then some exponent
    else none
  | point => if c.isDigit then some fraction else none
  | fraction => if c.isDigit then some fraction else if isExponent then some exponent else none
  | exponent =>
    if c.isDigit then some exponentDigits
    else if c = '+' ∨ c = '-' then some exponentSign
    else none
  | exponentSign => if c.isDigit then some exponentDigits else none
  | exponentDigits => if c.isDigit then some exponentDigits else none

def Numeral.token? (negative : Bool) : Numeral → Option Token
  | zero => some (if negative then .otherNumber else .natural 0)
  | whole n => some (if negative then .otherNumber else .natural n)
  | fraction => some .otherNumber
  | exponentDigits => some .otherNumber
  | empty => none
  | point => none
  | exponent => none
  | exponentSign => none

def begin? (c : Char) : Option (List Token × State) :=
  if c = ' ' ∨ c = '\n' ∨ c = '\r' ∨ c = '\t' then some ([], .between)
  else if c = '{' then some ([.openBrace], .between)
  else if c = '}' then some ([.closeBrace], .between)
  else if c = '[' then some ([.openBracket], .between)
  else if c = ']' then some ([.closeBracket], .between)
  else if c = ',' then some ([.comma], .between)
  else if c = ':' then some ([.colon], .between)
  else if c = '"' then some ([], .text .empty)
  else if c = 'n' then some ([], .word ['u', 'l', 'l'] .null)
  else if c = 't' then some ([], .word ['r', 'u', 'e'] (.bool true))
  else if c = 'f' then some ([], .word ['a', 'l', 's', 'e'] (.bool false))
  else if c = '-' then some ([], .numeral true .empty)
  else (Numeral.empty.next? c).map fun part ↦ ([], .numeral false part)

def escaped? (w : Written) (c : Char) : Option State :=
  if c = '"' ∨ c = '\\' ∨ c = '/' then some (.text (w.push c))
  else if c = 'b' then some (.text (w.push '\x08'))
  else if c = 'f' then some (.text (w.push '\x0c'))
  else if c = 'n' then some (.text (w.push '\n'))
  else if c = 'r' then some (.text (w.push '\r'))
  else if c = 't' then some (.text (w.push '\t'))
  else if c = 'u' then some (.unit w 4 0)
  else none

def step? (state : State) (c : Char) : Option (List Token × State) :=
  match state with
  | .between => begin? c
  | .word [] _ => none
  | .word [d] token => if c = d then some ([token], .between) else none
  | .word (d :: rest) token => if c = d then some ([], .word rest token) else none
  | .numeral negative part =>
    match part.next? c with
    | some part => some ([], .numeral negative part)
    | none => do
      let token ← part.token? negative
      let (tokens, state) ← begin? c
      return (token :: tokens, state)
  | .text w =>
    if c = '"' then some ([.text w.value], .between)
    else if c = '\\' then some ([], .escape w)
    else if c.toNat < 0x20 then none
    else some ([], .text (w.push c))
  | .escape w => (escaped? w c).map fun state ↦ ([], state)
  | .unit w due n => do
    if 0x80 ≤ c.toNat then none
    let digit ← Text.Hex.digitValue? (UInt8.ofNat c.toNat)
    let n := 16 * n + digit
    if due = 1 then return ([], .text (w.pushUnit n)) else return ([], .unit w (due - 1) n)

def scan? (state : State) : List Char → Option (List Token)
  | [] =>
    match state with
    | .between => some []
    | .numeral negative part => (part.token? negative).map ([·])
    | _ => none
  | c :: cs => do
    let (tokens, state) ← step? state c
    return tokens ++ (← scan? state cs)

def ofText? (s : String) : Option (List Token) := scan? .between s.toList

end Token

end ValidatorClient.Json
