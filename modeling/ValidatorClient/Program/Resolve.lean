import ValidatorClient.Error
import ValidatorClient.Program.Location

namespace ValidatorClient.Program

open Ledger

def locate (l : Location) : Except ClientError Address := l.address.mapError .ledger

/-- The number that is found. There need not be one, and that is an error then. -/
def numerationOf {m : Type → Type} [Monad m] [MonadExcept ClientError m]
    (derive : UInt32 → m Address) (target : Address) (upperBound : UInt32) : m UInt32 :=
  do
  match ← findNumeration derive target upperBound with
  | some n => return n
  | none => throw (.notFound (.numeration upperBound target))

def resolve (location : UInt32 → Location) (address : Option Address) (numeration : Option UInt32)
    (upperBound : UInt32) : Except ClientError (Address × UInt32) :=
  match numeration, address with
  | some n, _ => do return (← locate (location n), n)
  | none, some address =>
    do return (address, ← numerationOf (fun n ↦ locate (location n)) address upperBound)
  | none, none => .error (.invalidArgument .noNumberedAccount)

end ValidatorClient.Program
