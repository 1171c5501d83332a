import ValidatorClient.FileTree
import ValidatorClient.Json.Value
import ValidatorClient.Json.Written
import ValidatorClient.Ledger.Address
import ValidatorClient.Ledger.Wire
import ValidatorClient.Signer.DerivationPath
import ValidatorClient.Text.Blank

namespace ValidatorClient

open Ledger

inductive DeviceError where
  | unavailable (reason : String)
  | rejected
  | protocol (reason : String)
  deriving DecidableEq, Repr

def DeviceError.message : DeviceError → String
  | .unavailable reason => "device unavailable: " ++ reason
  | .rejected => "request rejected on the device"
  | .protocol reason => "device protocol error: " ++ reason

inductive DeviceRequest where
  | address (path : DerivationPath)
  | sign (path : DerivationPath) (message : Bytes)
  deriving DecidableEq

namespace Helper

def field (name value : String) : String := Json.quote name ++ ":" ++ Json.quote value

def line : DeviceRequest → String
  | .address path =>
    "\x7b" ++ field "op" "address" ++ "," ++ field "path" path.toString ++ "\x7d"
  | .sign path message =>
    "\x7b" ++ field "op" "sign" ++ "," ++ field "path" path.toString ++ "," ++
      field "message" (Text.Hex.encode message) ++ "\x7d"

structure Reply where
  address : Option String
  signature : Option String
  error : Option String
  deriving DecidableEq

def unique? (key : String) (entries : List (Option String × Json.Value)) :
    Option (Option String) :=
  match entries.filter (·.1 = some key) with
  | [] => some none
  | [(_, v)] => v.optionalText?
  | _ => none

/-- Other keys say nothing. A reply may also be the list of its first fields, without names. -/
def Reply.ofValue? : Json.Value → Option Reply
  | .object entries =>
    if entries.any (·.1.isNone) then none
    else do
      return ⟨← unique? "address" entries, ← unique? "signature" entries,
        ← unique? "error" entries⟩
  | .array items => do
    match ← items.mapM Json.Value.optionalText? with
    | [] => some ⟨none, none, none⟩
    | [a] => some ⟨a, none, none⟩
    | [a, s] => some ⟨a, s, none⟩
    | [a, s, e] => some ⟨a, s, e⟩
    | _ => none
  | _ => none

inductive StartFault where
  | zeroByte
  | file (fault : FileTree.Fault)
  deriving DecidableEq, Repr

def StartFault.message : StartFault → String
  | .zeroByte => "nul byte found in provided data"
  | .file fault => fault.message

/-- What is in the way of starting a helper where no file may be run. A name without a slash is
looked for among the programs of the system, and those do not hold it. -/
def startFault (files : FileTree) (program : String) : StartFault :=
  if program.toList.contains '\x00' then .zeroByte
  else if program.toList.contains '/' then
    match files.read program with
    | .ok _ | .error .isDirectory => .file .denied
    | .error fault => .file fault
  else if program = "." ∨ program = ".." then .file .denied
  else if FileTree.maxName < (Text.Utf8.encode program).length then .file .nameTooLong
  else .file .notFound

inductive Outcome where
  | notStarted (program : String) (fault : StartFault)
  | printed (output : Bytes)

def firstLine : Bytes → Bytes
  | [] => []
  | b :: bytes => if b = 10 then [b] else b :: firstLine bytes

/-- The reply in the first line of what was printed. An error in it wins over all else. -/
def reply : Outcome → Except DeviceError Reply
  | .notStarted program fault =>
    .error (.unavailable ("spawn " ++ program ++ ": " ++ fault.message))
  | .printed output => do
    let text ← match Text.Utf8.decode (firstLine output) with
      | .ok text => pure (Text.Blank.trim text)
      | .error fault => throw (.unavailable ("read reply: " ++ fault.message))
    if text.isEmpty then throw (.unavailable "helper exited without a reply")
    match (Json.Value.parse? text).bind Reply.ofValue? with
    | none => throw (.protocol ("decode reply: " ++ Json.Value.refusal))
    | some r =>
      match r.error with
      | none => return r
      | some "rejected" => throw .rejected
      | some other => throw (.unavailable other)

def address (outcome : Outcome) : Except DeviceError Address := do
  match (← reply outcome).address with
  | none => throw (.protocol "reply has no address")
  | some text =>
    match Address.parse text with
    | .ok a => return a
    | .error e => throw (.protocol ("bad address in reply: " ++ e.message))

def signature (outcome : Outcome) : Except DeviceError Signature := do
  match (← reply outcome).signature with
  | none => throw (.protocol "reply has no signature")
  | some text =>
    match Text.Hex.decode (Text.Utf8.encode text) with
    | .error e => throw (.protocol ("bad signature hex: " ++ e.message))
    | .ok bytes =>
      match FixedBytes.ofList? 64 bytes with
      | some s => return s
      | none => throw (.protocol s!"signature is {bytes.length} bytes")

end Helper

end ValidatorClient
