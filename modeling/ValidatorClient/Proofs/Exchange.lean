import ValidatorClient.Proofs.Process

namespace ValidatorClient

open Ledger

namespace Exchange

inductive Succeeds : Exchange → Prop
  | blockReference (reference : BlockReference) :
      Succeeds ⟨.blockReference, some (Except.ok reference)⟩
  | submit {wire : Bytes} {lastValidHeight : UInt64} (submission : Submission) :
      Succeeds ⟨.submit wire lastValidHeight, some (Except.ok submission)⟩
  | account {address : Address} (data : Bytes) :
      Succeeds ⟨.account address, some (Except.ok (some data))⟩
  | sign {signer : Signer} {message : Bytes} (signature : Signature) :
      Succeeds ⟨.sign signer message, some (Except.ok signature)⟩

/-- The error that an answer is. That there is no account counts as one. -/
inductive Fails : Exchange → ClientError → Prop
  | blockReference (e : RpcError) : Fails ⟨.blockReference, some (Except.error e)⟩ (.rpc e)
  | submit {wire : Bytes} {lastValidHeight : UInt64} (e : RpcError) :
      Fails ⟨.submit wire lastValidHeight, some (Except.error e)⟩ (.rpc e)
  | account {address : Address} (e : RpcError) :
      Fails ⟨.account address, some (Except.error e)⟩ (.rpc e)
  | noAccount (kind : String) (address : Address) :
      Fails ⟨.account address, some (Except.ok none)⟩ (.notFound (.account kind address))
  | sign {signer : Signer} {message : Bytes} (e : ClientError) :
      Fails ⟨.sign signer message, some (Except.error e)⟩ e

end Exchange

variable {α β : Type} {exchanges first rest before after : List Exchange} {e : Exchange}

inductive Prompt : List Exchange → Option (Except ClientError α) → Prop
  | done {exchanges : List Exchange} (h : ∀ e ∈ exchanges, e.Succeeds)
      (result : Except ClientError α) :
      Prompt exchanges (some result)
  | failed {exchanges : List Exchange} {e : Exchange} {error : ClientError}
      (h : ∀ e ∈ exchanges, e.Succeeds) (he : e.Fails error) :
      Prompt (exchanges ++ [e]) (some (.error error))
  | givenUp {exchanges : List Exchange} (h : ∀ e ∈ exchanges, e.Succeeds) (query : Query) :
      Prompt (exchanges ++ [⟨query, none⟩]) none

namespace Prompt

theorem nil (result : Except ClientError α) : Prompt [] (some result) := .done (by simp) result

theorem one_failed {error : ClientError} (h : e.Fails error) :
    Prompt [e] (some (.error error : Except ClientError α)) :=
  have hnone : ∀ e ∈ ([] : List Exchange), e.Succeeds := nofun
  .failed hnone h

theorem one_givenUp (query : Query) :
    Prompt [⟨query, none⟩] (none : Option (Except ClientError α)) :=
  have hnone : ∀ e ∈ ([] : List Exchange), e.Succeeds := nofun
  .givenUp hnone query

theorem succeeds {a : α} (h : Prompt exchanges (some (.ok a))) : ∀ e ∈ exchanges, e.Succeeds := by
  cases h with
  | done h _ => exact h

theorem append {r : Option (Except ClientError β)} (hfirst : ∀ e ∈ first, e.Succeeds)
    (h : Prompt rest r) : Prompt (first ++ rest) r := by
  have hall {l : List Exchange} (hl : ∀ e ∈ l, e.Succeeds) : ∀ e ∈ first ++ l, e.Succeeds := by
    intro e he
    rcases List.mem_append.1 he with he | he
    · exact hfirst e he
    · exact hl e he
  cases h with
  | done h result => exact .done (hall h) result
  | failed h he =>
    rw [← List.append_assoc]
    exact .failed (hall h) he
  | givenUp h query =>
    rw [← List.append_assoc]
    exact .givenUp (hall h) query

/-- Work that stopped without a value may have been meant to give any. -/
theorem of_stop {stop : Option ClientError}
    (h : Prompt exchanges (stop.map (Except.error (α := α)))) :
    Prompt exchanges (stop.map (Except.error (α := β))) := by
  cases stop with
  | none =>
    cases h with
    | givenUp h query => exact .givenUp h query
  | some error =>
    cases h with
    | done h _ => exact .done h _
    | failed h he => exact .failed h he

theorem eq_or_mem_of_append_eq {x : Exchange} (h : first ++ [x] = before ++ e :: after) :
    after = [] ∧ x = e ∨ e ∈ first := by
  rcases List.eq_nil_or_concat after with hafter | ⟨l, y, hafter⟩
  · subst hafter
    exact .inl ⟨rfl, (List.append_singleton_inj.1 h).2⟩
  · rw [hafter, List.concat_eq_append, ← List.cons_append, ← List.append_assoc] at h
    rw [(List.append_singleton_inj.1 h).1]
    exact .inr (by simp)

theorem stops {r : Option (Except ClientError α)} (h : Prompt exchanges r)
    (heq : exchanges = before ++ e :: after) (he : ¬ e.Succeeds) :
    after = [] ∧
      (e.answer = none ∧ r = none ∨ ∃ error, e.Fails error ∧ r = some (.error error)) := by
  cases h with
  | done h _ => exact absurd (h e (by simp [heq])) he
  | failed h hfails =>
    rcases eq_or_mem_of_append_eq heq with ⟨hafter, hx⟩ | hmem
    · exact ⟨hafter, .inr ⟨_, hx ▸ hfails, rfl⟩⟩
    · exact absurd (h e hmem) he
  | givenUp h query =>
    rcases eq_or_mem_of_append_eq heq with ⟨hafter, hx⟩ | hmem
    · exact ⟨hafter, .inl ⟨by rw [← hx], rfl⟩⟩
    · exact absurd (h e hmem) he

end Prompt

inductive ClientError.OfPreparation : ClientError → Prop
  | invalidArgument (fault : CallFault) : OfPreparation (.invalidArgument fault)
  | notFound (fault : NotFoundFault) : OfPreparation (.notFound fault)
  | accountData (fault : Program.AccountFault) : OfPreparation (.accountData fault)
  | ledger (error : Ledger.Error) : OfPreparation (.ledger error)
  | rpc (error : RpcError) : OfPreparation (.rpc error)
  | codec (error : Codec.Error) : OfPreparation (.codec error)

namespace Attempt

variable {σ α β : Type} {s : σ}

/-- Work that only reads accounts, and changes nothing. Where it succeeds, what was read and its
result are related. -/
def Reads (s : σ) (act : Attempt σ α) (post : List Exchange → α → Prop) : Prop :=
  ∀ exchanges s' r, (act s).Trace exchanges s' r →
    s' = s ∧ Prompt exchanges r ∧ (∀ e ∈ exchanges, ∃ address, e.query = .account address) ∧
      (∀ e, r = some (.error e) → e.OfPreparation) ∧ ∀ a, r = some (.ok a) → post exchanges a

theorem Reads.imp {act : Attempt σ α} {P Q : List Exchange → α → Prop} (h : Reads s act P)
    (himp : ∀ exchanges a, P exchanges a → Q exchanges a) : Reads s act Q := by
  intro exchanges s' r htrace
  obtain ⟨hs, hprompt, hasked, herror, hpost⟩ := h exchanges s' r htrace
  exact ⟨hs, hprompt, hasked, herror, fun a hr ↦ himp exchanges a (hpost a hr)⟩

theorem Reads.trace {act : Attempt σ α} {post : List Exchange → α → Prop} (h : Reads s act post) :
    Reads s act fun exchanges a ↦ (act s).Trace exchanges s (some (.ok a)) := by
  intro exchanges s' r htrace
  obtain ⟨hs, hprompt, hasked, herror, -⟩ := h exchanges s' r htrace
  refine ⟨hs, hprompt, hasked, herror, fun a hr ↦ ?_⟩
  rwa [hs, hr] at htrace

theorem reads_ofExcept {x : Except ClientError α} (h : ∀ e, x = .error e → e.OfPreparation) :
    Reads s (ofExcept x) fun exchanges a ↦ exchanges = [] ∧ x = .ok a := by
  intro exchanges s' r htrace
  obtain ⟨he, hs, hr⟩ := trace_ofExcept_iff.1 htrace
  subst he hs hr
  exact ⟨rfl, .nil x, by simp, fun e hx ↦ h e (Option.some.inj hx),
    fun a hx ↦ ⟨rfl, Option.some.inj hx⟩⟩

theorem Reads.bind {act : Attempt σ α} {next : α → Attempt σ β} {P : List Exchange → α → Prop}
    {Q : List Exchange → β → Prop} (h : Reads s act P)
    (hnext : ∀ first a, P first a → Reads s (next a) fun rest b ↦ Q (first ++ rest) b) :
    Reads s (act >>= next) Q := by
  intro exchanges s' r htrace
  rcases trace_bind_cases htrace with ⟨stop, hact, hr⟩ | ⟨first, rest, t, a, he, hact, hrest⟩
  · obtain ⟨hs, hprompt, hasked, herror, -⟩ := h _ _ _ hact
    subst hr
    exact ⟨hs, hprompt.of_stop, hasked, fun e he ↦ herror e (stop_eq_error he),
      fun b hb ↦ absurd hb (stop_ne_ok stop b)⟩
  · obtain ⟨ht, hprompt, hasked, -, hpost⟩ := h _ _ _ hact
    subst he ht
    obtain ⟨hs, hprompt', hasked', hrest'⟩ := hnext first a (hpost a rfl) _ _ _ hrest
    refine ⟨hs, hprompt'.append hprompt.succeeds, fun e he ↦ ?_, hrest'⟩
    rcases List.mem_append.1 he with he | he
    · exact hasked e he
    · exact hasked' e he

theorem Reads.then {act : Attempt σ α} {next : α → Attempt σ β} {P : List Exchange → α → Prop}
    {Q : β → Prop} (h : Reads s act P) (hnext : ∀ a, Reads s (next a) fun _ b ↦ Q b) :
    Reads s (act >>= next) fun _ b ↦ Q b :=
  h.bind fun _ a _ ↦ hnext a

theorem reads_ofExcept_bind {x : Except ClientError α} {next : α → Attempt σ β}
    {Q : List Exchange → β → Prop} (h : ∀ e, x = .error e → e.OfPreparation)
    (hnext : ∀ a, x = .ok a → Reads s (next a) Q) : Reads s (ofExcept x >>= next) Q := by
  refine (reads_ofExcept h).bind fun first a hx ↦ ?_
  simpa only [hx.1, List.nil_append] using hnext a hx.2

end Attempt

end ValidatorClient
