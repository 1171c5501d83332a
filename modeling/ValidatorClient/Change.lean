namespace ValidatorClient

/-- A change of a state that may fail. What was done before a failure stays done. -/
abbrev Change (σ ε α : Type) := ExceptT ε (StateM σ) α

namespace Change

variable {σ τ ε α : Type}

def apply (c : Change σ ε α) (s : σ) : Except ε α × σ := c.run s

def onLeft (c : Change σ ε α) : Change (σ × τ) ε α := fun (s, t) ↦
  let (r, s) := c.apply s
  (r, s, t)

def onRight (c : Change τ ε α) : Change (σ × τ) ε α := fun (s, t) ↦
  let (r, t) := c.apply t
  (r, s, t)

end Change

end ValidatorClient
