namespace ValidatorClient

structure DerivationPath where
  slot : UInt32
  deriving DecidableEq, Repr

namespace DerivationPath

/-- A component from which no key can be derived without the secret above it. -/
def harden (n : UInt32) : UInt32 := n ||| 0x80000000

def components (p : DerivationPath) : List UInt32 := [harden 44, harden 501, harden p.slot]

def toString (p : DerivationPath) : String := s!"m/44'/501'/{p.slot}'"

end DerivationPath

end ValidatorClient
