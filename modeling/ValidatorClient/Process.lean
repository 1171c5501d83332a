import ValidatorClient.Error

namespace ValidatorClient

open Ledger

inductive SignerKind where
  | inMemory
  | hardware
  deriving DecidableEq, Repr

/-- Someone who can be asked to sign. What they answer is up to them. -/
structure Signer where
  id : Nat
  address : Address
  kind : SignerKind
  deriving DecidableEq

inductive Query where
  | blockReference
  | submit (wire : Bytes) (lastValidHeight : UInt64)
  | account (address : Address)
  | sign (signer : Signer) (message : Bytes)
  | deviceAddress (path : DerivationPath) (timeout : Nat)
  deriving DecidableEq

/-- What the outside may answer. No address from a device means that the time was over. -/
def Query.Answer : Query → Type
  | blockReference => Except RpcError BlockReference
  | submit _ _ => Except RpcError Submission
  | account _ => Except RpcError (Option Bytes)
  | sign _ _ => Except ClientError Signature
  | deviceAddress _ _ => Option (Except DeviceError Address)

/-- A run of some work on a state. It ends, reads the clock, or waits for an answer. If a wait is
given up, the state is left as it stands there. -/
inductive Process (σ α : Type) where
  | done (state : σ) (result : α)
  | clock (next : Nat → Process σ α)
  | wait (state : σ) (query : Query) (next : query.Answer → Process σ α)

namespace Process

variable {σ τ α β : Type}

def bind (next : σ → α → Process σ β) : Process σ α → Process σ β
  | done s a => next s a
  | clock k => clock fun now ↦ (k now).bind next
  | wait s q k => wait s q fun answer ↦ (k answer).bind next

def mapState (f : σ → τ) : Process σ α → Process τ α
  | done s a => done (f s) a
  | clock k => clock fun now ↦ (k now).mapState f
  | wait s q k => wait (f s) q fun answer ↦ (k answer).mapState f

/-- Runs from a time on, with an outside that answers after a while. A wait that is not over at the
deadline is given up there. Gives the time at the end, the state, and the result if there is one. -/
def run {m : Type → Type} [Monad m] (respond : (query : Query) → m (Nat × query.Answer))
    (deadline : Option Nat) : Process σ α → Nat → m (Nat × σ × Option α)
  | done s a, now => return (now, s, some a)
  | clock k, now => (k now).run respond deadline now
  | wait s q k, now => do
    let (delay, answer) ← respond q
    match deadline with
    | none => (k answer).run respond none (now + delay)
    | some time =>
      if time < now + delay then return (time, s, none)
      else (k answer).run respond (some time) (now + delay)

end Process

def Action (σ α : Type) : Type := σ → Process σ α

namespace Action

variable {σ τ α : Type}

instance : Monad (Action σ) where
  pure a := fun s ↦ .done s a
  bind act next := fun s ↦ (act s).bind fun s a ↦ next a s

instance : MonadStateOf σ (Action σ) where
  get := fun s ↦ .done s s
  set s := fun _ ↦ .done s ()
  modifyGet f := fun s ↦ .done (f s).2 (f s).1

def ask (query : Query) : Action σ query.Answer := fun s ↦ .wait s query (.done s)

def now : Action σ Nat := fun s ↦ .clock (.done s)

def onLeft (act : Action σ α) : Action (σ × τ) α := fun (s, t) ↦ (act s).mapState (·, t)

def onRight (act : Action τ α) : Action (σ × τ) α := fun (s, t) ↦ (act t).mapState (s, ·)

/-- Works with a state of its own, which is given up at the end. -/
def withOwn (own : σ) (act : Action (σ × τ) α) : Action τ α := fun t ↦ (act (own, t)).mapState (·.2)

def run {m : Type → Type} [Monad m] (act : Action σ α)
    (respond : (query : Query) → m (Nat × query.Answer)) (deadline : Option Nat) (state : σ)
    (now : Nat) : m (Nat × σ × Option α) :=
  (act state).run respond deadline now

end Action

/-- Work that may fail. What it did to the state before that stays. -/
abbrev Attempt (σ α : Type) := ExceptT ClientError (Action σ) α

namespace Attempt

variable {σ τ α : Type}

def ofExcept (r : Except ClientError α) : Attempt σ α := fun s ↦ .done s r

def ask (query : Query) : Attempt σ query.Answer := ExceptT.lift (Action.ask query)

def now : Attempt σ Nat := ExceptT.lift Action.now

def onLeft (act : Attempt σ α) : Attempt (σ × τ) α := Action.onLeft act

def onRight (act : Attempt τ α) : Attempt (σ × τ) α := Action.onRight act

def withOwn (own : σ) (act : Attempt (σ × τ) α) : Attempt τ α := Action.withOwn own act

end Attempt

end ValidatorClient
