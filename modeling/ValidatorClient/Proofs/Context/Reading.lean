import ValidatorClient.Proofs.Command.Preparation
import ValidatorClient.Proofs.Program.Account

namespace ValidatorClient

open Codec Ledger Program Process

/-- The answers about accounts are what the node has. Everything else may be answered in any way. -/
def AnsweredFrom (node : Address → Option Bytes) (exchanges : List Exchange) : Prop :=
  ∀ address answer, ⟨.account address, some answer⟩ ∈ exchanges → answer = Except.ok (node address)

theorem AnsweredFrom.of_append {node : Address → Option Bytes} {first rest : List Exchange}
    (h : AnsweredFrom node (first ++ rest)) : AnsweredFrom node first ∧ AnsweredFrom node rest :=
  ⟨fun address answer hmem ↦ h address answer (List.mem_append_left _ hmem),
    fun address answer hmem ↦ h address answer (List.mem_append_right _ hmem)⟩

namespace Attempt

variable {σ α β : Type} {node : Address → Option Bytes}

def Finds (node : Address → Option Bytes) (act : Attempt σ α) (result : Except ClientError α) :
    Prop :=
  ∀ s exchanges s' r, (act s).Trace exchanges s' (some r) → AnsweredFrom node exchanges → r = result

theorem finds_ofExcept (x : Except ClientError α) : Finds node (ofExcept x : Attempt σ α) x :=
  fun _ _ _ _ h _ ↦ Option.some.inj (trace_ofExcept_iff.1 h).2.2

theorem Finds.bind {act : Attempt σ α} {next : α → Attempt σ β} {x : Except ClientError α}
    {y : α → Except ClientError β} (h : Finds node act x) (hnext : ∀ a, Finds node (next a) (y a)) :
    Finds node (act >>= next) (x >>= y) := by
  intro s exchanges s' r htrace hnode
  rcases trace_bind_cases htrace with ⟨stop, hact, hr⟩ | ⟨first, rest, t, a, he, hact, hrest⟩
  · cases stop with
    | none => cases hr
    | some e =>
      rw [← h _ _ _ _ hact hnode, Option.some.inj hr]
      rfl
  · rw [he] at hnode
    rw [← h _ _ _ _ hact hnode.of_append.1, hnext a _ _ _ _ hrest hnode.of_append.2]
    rfl

end Attempt

inductive Reading where
  | gem (mint : Address)
  | general

namespace Reading

open Attempt

variable {σ : Type} {ctx : Context} {node : Address → Option Bytes} {address : Address}
  {data : Bytes} {e : ClientError}

def kind : Reading → String
  | gem _ => "gem"
  | general => "general"

def location (program : Address) : Reading → Location
  | gem mint => .gem program mint
  | general => .single program .general

def Value : Reading → Type
  | gem _ => Address
  | general => GeneralAccount

def parse : (x : Reading) → Bytes → Except AccountFault x.Value
  | gem _, data => readAddress data fundsLocationOffset
  | general, data => readAccount GeneralAccount.layout data

def read (ctx : Context) (x : Reading) : Attempt σ x.Value := do
  let address ← Attempt.ofExcept (locate (x.location ctx.program))
  let data ← Context.accountData x.kind address
  Attempt.ofExcept ((x.parse data).mapError .accountData)

def Holds (data : Bytes) : Reading → Prop
  | gem _ => 52 ≤ data.length
  | general => ∃ g n, GeneralAccount.layout.decodeFront data = .ok (g, n)

inductive Faulty (address : Address) : Reading → Option Bytes → ClientError → Prop
  | absent (x : Reading) : Faulty address x none (.notFound (.account x.kind address))
  | short {mint : Address} {data : Bytes} (h : data.length < 52) :
      Faulty address (gem mint) (some data) (.accountData (.noAddress data.length 20))
  | undecodable {data : Bytes} {cause : Codec.Error}
      (h : GeneralAccount.layout.decodeFront data = .error cause) :
      Faulty address general (some data) (.accountData (.undecodable cause))

def Sound (ctx : Context) (node : Address → Option Bytes) (x : Reading) : Prop :=
  ∃ address data, locate (x.location ctx.program) = .ok address ∧
    node address = some data ∧ x.Holds data

theorem holds_or_faulty (x : Reading) (address : Address) (found : Option Bytes) :
    (∃ data, found = some data ∧ x.Holds data) ∨ ∃ e, x.Faulty address found e := by
  cases found with
  | none => exact .inr ⟨_, .absent x⟩
  | some data =>
    cases x with
    | gem mint =>
      rcases Nat.lt_or_ge data.length 52 with hlt | hle
      · exact .inr ⟨_, .short hlt⟩
      · exact .inl ⟨data, rfl, hle⟩
    | general =>
      cases h : GeneralAccount.layout.decodeFront data with
      | ok front => exact .inl ⟨data, rfl, front.1, front.2, h⟩
      | error cause => exact .inr ⟨_, .undecodable h⟩

def held (node : Address → Option Bytes) (kind : String) (address : Address) :
    Except ClientError Bytes :=
  match node address with
  | some data => .ok data
  | none => .error (.notFound (.account kind address))

def value (ctx : Context) (node : Address → Option Bytes) (x : Reading) :
    Except ClientError x.Value := do
  let address ← locate (x.location ctx.program)
  let data ← held node x.kind address
  (x.parse data).mapError .accountData

theorem held_of_some {kind : String} (h : node address = some data) :
    held node kind address = .ok data := by
  unfold held
  rw [h]

theorem held_of_none {kind : String} (h : node address = none) :
    held node kind address = .error (.notFound (.account kind address)) := by
  unfold held
  rw [h]

theorem finds_accountData (kind : String) (address : Address) :
    Finds node (Context.accountData kind address : Attempt σ Bytes) (held node kind address) := by
  intro s exchanges s' r h hnode
  rw [Context.accountData, ask_bind] at h
  rcases trace_wait_iff.1 h with ⟨-, -, hr⟩ | ⟨answer, rest, he, h⟩
  · cases hr
  · cases hnode address answer (by rw [he]; exact List.mem_cons_self)
    unfold held
    cases hfound : node address
    all_goals
      rw [hfound] at h
      exact Option.some.inj (trace_done_iff.1 h).2.2

theorem finds_read (x : Reading) : Finds node (x.read ctx : Attempt σ x.Value) (x.value ctx node) :=
  (finds_ofExcept _).bind fun address ↦ (finds_accountData x.kind address).bind fun _ ↦
    finds_ofExcept _

section Value

variable {x : Reading} (hlocate : locate (x.location ctx.program) = .ok address)
include hlocate

theorem value_of_some (hdata : node address = some data) :
    x.value ctx node = (x.parse data).mapError .accountData := by
  rw [value, hlocate]
  change held node x.kind address >>= _ = _
  rw [held_of_some hdata]
  rfl

theorem value_of_none (hnone : node address = none) :
    x.value ctx node = .error (.notFound (.account x.kind address)) := by
  rw [value, hlocate]
  change held node x.kind address >>= _ = _
  rw [held_of_none hnone]
  rfl

theorem value_eq_error (hfaulty : x.Faulty address (node address) e) :
    x.value ctx node = .error e := by
  generalize hfound : node address = found at hfaulty
  cases hfaulty with
  | absent => exact value_of_none hlocate hfound
  | @short mint _ hshort =>
    have hparse : (gem mint).parse _ = .error _ := readAddress_of_short hshort
    rw [value_of_some hlocate hfound, hparse]
    rfl
  | undecodable hcause =>
    have hparse : general.parse _ = .error _ := readAccount_of_error hcause
    rw [value_of_some hlocate hfound, hparse]
    rfl

theorem parse_of_value {v : x.Value} (hdata : node address = some data)
    (hvalue : x.value ctx node = .ok v) :
    x.parse data = .ok v := by
  rw [value_of_some hlocate hdata] at hvalue
  exact Except.mapError_eq_ok_iff.1 hvalue

end Value

theorem toList_of_value_gem {mint : Address} {a : (gem mint).Value}
    (hlocate : ctx.gem mint = .ok address) (hdata : node address = some data)
    (hvalue : (gem mint).value ctx node = .ok a) :
    Address.toList a = (data.drop 20).take 32 :=
  readAddress_eq_ok_iff.1 (parse_of_value (x := gem mint) hlocate hdata hvalue)

theorem wordAt_of_value_general {g : general.Value} (hlocate : ctx.single .general = .ok address)
    (hdata : node address = some data) (hvalue : general.value ctx node = .ok g) :
    data.wordAt 4 = GeneralAccount.voteAccountCount g ∧
      data.wordAt 41 = GeneralAccount.proposalCount g := by
  obtain ⟨n, hg⟩ := readAccount_eq_ok_iff.1 (parse_of_value (x := general) hlocate hdata hvalue)
  exact wordAt_of_decodeFront hg

theorem Sound.exists_value {x : Reading} (h : x.Sound ctx node) :
    ∃ v, x.value ctx node = .ok v := by
  obtain ⟨address, data, hlocate, hdata, hholds⟩ := h
  rw [value_of_some hlocate hdata]
  simp only [Except.mapError_eq_ok_iff]
  cases x with
  | gem => exact exists_readAddress hholds
  | general =>
    obtain ⟨g, n, hg⟩ := hholds
    exact ⟨g, readAccount_eq_ok_iff.2 ⟨n, hg⟩⟩

theorem sound_of_value {x : Reading} {v : x.Value} (h : x.value ctx node = .ok v) :
    x.Sound ctx node := by
  obtain ⟨address, hlocate, -⟩ := Except.bind_eq_ok_iff.1 h
  rcases x.holds_or_faulty address (node address) with ⟨data, hdata, hholds⟩ | ⟨e, hfaulty⟩
  · exact ⟨address, data, hlocate, hdata, hholds⟩
  · rw [value_eq_error hlocate hfaulty] at h
    cases h

/-- The accounts are read one after the other, and then nothing else is. -/
inductive InOrder {α : Type} (ctx : Context) (node : Address → Option Bytes) :
    List Reading → Except ClientError α → Prop
  | nil (result : Except ClientError α) : InOrder ctx node [] result
  | cons {x : Reading} {rest : List Reading} {next : x.Value → Except ClientError α}
      (h : ∀ v, InOrder ctx node rest (next v)) :
      InOrder ctx node (x :: rest) (x.value ctx node >>= next)

theorem InOrder.sound {α : Type} {readings : List Reading} {result : Except ClientError α} {a : α}
    (h : InOrder ctx node readings result) (ha : result = .ok a) :
    ∀ x ∈ readings, x.Sound ctx node := by
  induction h with
  | nil => simp
  | cons _ ih =>
    obtain ⟨v, hv, ha⟩ := Except.bind_eq_ok_iff.1 ha
    exact List.forall_mem_cons.2 ⟨sound_of_value hv, ih v ha⟩

theorem InOrder.eq_error {α : Type} {before after : List Reading} {x : Reading}
    {result : Except ClientError α} (h : InOrder ctx node (before ++ x :: after) result)
    (hbefore : ∀ y ∈ before, y.Sound ctx node)
    (haddress : locate (x.location ctx.program) = .ok address)
    (hfaulty : x.Faulty address (node address) e) :
    result = .error e := by
  induction before generalizing result with
  | nil =>
    cases h with
    | cons h =>
      rw [value_eq_error haddress hfaulty]
      rfl
  | cons y before ih =>
    rw [List.forall_mem_cons] at hbefore
    cases h with
    | cons h =>
      obtain ⟨v, hv⟩ := hbefore.1.exists_value
      rw [hv]
      exact ih (h v) hbefore.2

end Reading

end ValidatorClient
