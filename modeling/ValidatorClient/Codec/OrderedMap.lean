namespace ValidatorClient.Codec

/-- Pairs in the order in which their keys came. -/
structure OrderedMap (κ ν : Type) where
  entries : List (κ × ν)
  deriving DecidableEq

namespace OrderedMap

variable {κ ν : Type}

def empty : OrderedMap κ ν := ⟨[]⟩

def length (m : OrderedMap κ ν) : Nat := m.entries.length

def isEmpty (m : OrderedMap κ ν) : Bool := m.entries.isEmpty

variable [DecidableEq κ]

def get? (m : OrderedMap κ ν) (key : κ) : Option ν :=
  (m.entries.find? (·.1 = key)).map (·.2)

/-- Puts a value at the first entry of its key, or a new entry at the end. -/
def replaceOrAppend (key : κ) (value : ν) : List (κ × ν) → List (κ × ν)
  | [] => [(key, value)]
  | (k, v) :: entries =>
    if k = key then (k, value) :: entries else (k, v) :: replaceOrAppend key value entries

/-- The value that the key had before, and the map with its new value. -/
def insert (m : OrderedMap κ ν) (key : κ) (value : ν) : Option ν × OrderedMap κ ν :=
  (m.get? key, ⟨replaceOrAppend key value m.entries⟩)

def firstRepeat (seen : List κ) : List κ → Option Nat
  | [] => none
  | k :: ks => if k ∈ seen then some 0 else (firstRepeat (k :: seen) ks).map (· + 1)

def firstDuplicate (m : OrderedMap κ ν) : Option Nat :=
  firstRepeat [] (m.entries.map (·.1))

end OrderedMap

end ValidatorClient.Codec
