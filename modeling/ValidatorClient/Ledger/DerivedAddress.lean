import ValidatorClient.Ledger.Address
import ValidatorClient.Sha2

namespace ValidatorClient.Ledger.DerivedAddress

def maxSeeds : Nat := 16

def maxSeedLength : Nat := 32

def marker : Bytes := "ProgramDerivedAddress".toList.map fun c ↦ UInt8.ofNat c.toNat

/-- What is hashed: nothing marks where a seed ends. -/
def preimage (seeds : List Bytes) (owner : Address) : Bytes :=
  seeds.flatten ++ owner.toList ++ marker

/-- The hash of the seeds, unless it could be a public key. -/
def offCurve? (seeds : List Bytes) (owner : Address) : Option Address :=
  let address : Address := ⟨Sha2.sha256 (preimage seeds owner)⟩
  if address.isOnCurve then none else some address

/-- The first seed that is too long, counted from `index`. -/
def checkLengths (index : Nat) : List Bytes → Except Error Unit
  | [] => .ok ()
  | seed :: seeds =>
    if maxSeedLength < seed.length then .error (.invalidSeeds (.tooLong index seed.length))
    else checkLengths (index + 1) seeds

def create (seeds : List Bytes) (owner : Address) : Except Error Address := do
  if maxSeeds < seeds.length then throw (.invalidSeeds (.tooMany seeds.length))
  checkLengths 0 seeds
  match offCurve? seeds owner with
  | some address => return address
  | none => throw (.invalidSeeds .onCurve)

/-- Tries the bumps below `n` as a last seed, highest first. -/
def search (seeds : List Bytes) (owner : Address) : Nat → Option (Address × UInt8)
  | 0 => none
  | n + 1 =>
    (offCurve? (seeds ++ [[UInt8.ofNat n]]) owner).map (·, UInt8.ofNat n) <|> search seeds owner n

/-- The address with the highest bump that gives one. -/
def find (seeds : List Bytes) (owner : Address) : Except Error (Address × UInt8) := do
  if maxSeeds ≤ seeds.length then throw (.invalidSeeds (.noRoomForBump seeds.length))
  checkLengths 0 seeds
  match search seeds owner 256 with
  | some found => return found
  | none => throw .noDerivedAddress

end ValidatorClient.Ledger.DerivedAddress
