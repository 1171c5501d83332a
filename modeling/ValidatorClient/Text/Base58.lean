import ValidatorClient.Text.Quoted

namespace ValidatorClient.Text.Base58

def alphabet : List Char := "123456789ABCDEFGHJKLMNPQRSTUVWXYZabcdefghijkmnopqrstuvwxyz".toList

inductive Fault where
  | invalid (c : Char) (position : Nat)
  | notAscii (position : Nat)
  deriving DecidableEq, Repr

def Fault.message : Fault → String
  | .invalid c position =>
    "provided string contained invalid character " ++ Quoted.char c ++ s!" at byte {position}"
  | .notAscii position =>
    s!"provided string contained non-ascii character starting at byte {position}"

/-- The digits of `n` in a base, least first, at most `k` of them and none that only pads. -/
def digitsOf (base : Nat) : Nat → Nat → List Nat
  | 0, _ => []
  | k + 1, n => if n = 0 then [] else n % base :: digitsOf base k (n / base)

/-- Each zero byte in front is one digit in front. Two digits hold a byte. -/
def encode (bytes : Bytes) : String :=
  let zeros := bytes.takeWhile (· = 0)
  let digits := (digitsOf 58 (2 * bytes.length) (Bytes.ofBigEndian bytes)).reverse
  String.ofList ((zeros.map fun _ ↦ '1') ++ digits.map fun d ↦ alphabet.getD d '1')

/-- The values of the digits. All before the first fault is ASCII, so its place is a byte's. -/
def digitValues (position : Nat) : List Char → Except Fault (List Nat)
  | [] => .ok []
  | c :: cs =>
    if 0x80 ≤ c.toNat then .error (.notAscii position)
    else
      match alphabet.idxOf? c with
      | none => .error (.invalid c position)
      | some d => do return d :: (← digitValues (position + 1) cs)

def decode (s : String) : Except Fault Bytes := do
  let digits ← digitValues 0 s.toList
  let zeros := digits.takeWhile (· = 0)
  let n := digits.foldl (fun n d ↦ 58 * n + d) 0
  return (zeros.map fun _ ↦ 0) ++ (digitsOf 256 digits.length n).reverse.map UInt8.ofNat

end ValidatorClient.Text.Base58
