import ValidatorClient.Proofs.Alike
import ValidatorClient.Proofs.Assembler.Run
import ValidatorClient.Proofs.Context

namespace ValidatorClient

open Ledger Attempt Process

variable {answer : (query : Query) → query.Answer}

namespace BlockhashCache

def given (cache : BlockhashCache) (fresh : Except RpcError BlockReference) (now : Nat) :
    Except RpcError BlockReference :=
  match cache.live? now with
  | some reference => .ok reference
  | none => fresh

theorem Fetches.eq_given {cache cache' : BlockhashCache} {now : Nat} {moments : List Moment}
    {r : Option (Except ClientError BlockReference)} (h : cache.Fetches now moments cache' r)
    (hanswered : ∀ e ∈ Moment.exchanges moments, e.AnsweredBy answer) :
    r = some ((cache.given (answer .blockReference) now).mapError .rpc) := by
  unfold given
  cases h with
  | hit h =>
    rw [h]
    rfl
  | givenUp => cases hanswered _ (List.mem_singleton_self _)
  | failed h e =>
    have hanswer := hanswered _ (List.mem_singleton_self _)
    rw [h, ← Option.some.inj hanswer]
    rfl
  | fetched h reference later =>
    have hanswer := hanswered _ (List.mem_singleton_self _)
    rw [h, ← Option.some.inj hanswer]
    rfl

end BlockhashCache

namespace Assembler

variable {a : Assembler} {c : Compiled}

theorem alike_signPlanned (planned : List Planned) (a : Assembler) :
    Alike answer Eq (signPlanned planned a) (signPlanned planned a) := by
  induction planned generalizing a with
  | nil => exact alike_done _ rfl
  | cons p plan ih =>
    rw [signPlanned, get_bind]
    cases hbytes : a.messageBytes with
    | error e =>
      rw [ofExcept_bind_of_error _ _ rfl]
      exact alike_done _ rfl
    | ok bytes =>
      rw [ofExcept_bind_of_ok _ _ rfl, ask_bind]
      refine alike_wait ?_
      cases answer (.sign p.signer bytes) with
      | error e => exact alike_done _ rfl
      | ok signature =>
        dsimp only
        rw [get_bind]
        cases a.storeSignature p.slot p.signer.address signature with
        | error e =>
          rw [ofExcept_bind_of_error _ _ rfl]
          exact alike_done _ rfl
        | ok a' =>
          rw [ofExcept_bind_of_ok _ _ rfl, set_bind]
          exact ih a'

theorem alike_sign (signers : List Signer) (a : Assembler) :
    Alike answer Eq (sign signers a) (sign signers a) := by
  by_cases hstage : a.stage ∈ [.collectingSignatures, .readyToSubmit]
  · rw [sign, get_bind, ofExcept_bind_of_ok _ _ (expectStage_of_mem hstage)]
    cases plan a.slotOf signers with
    | error e =>
      rw [ofExcept_bind_of_error _ _ rfl]
      exact alike_done _ rfl
    | ok planned =>
      rw [ofExcept_bind_of_ok _ _ rfl]
      exact alike_signPlanned planned a
  · rw [sign_of_stage hstage]
    exact alike_done _ rfl

def taken (a : Assembler) (fetched : Except RpcError BlockReference) :
    Except ClientError BlockReference := do
  let reference ← fetched.mapError .rpc
  discard (a.compile reference)
  return reference

theorem taken_of_compile {fetched : Except RpcError BlockReference} {reference : BlockReference}
    (h : some (Except.ok reference) = some (fetched.mapError ClientError.rpc)) :
    a.taken fetched = (a.compile reference).map fun _ ↦ reference := by
  rw [taken, ← Option.some.inj h]
  change (discard (a.compile reference) >>= fun _ ↦ _) = _
  cases a.compile reference <;> rfl

theorem fetchReference_answered {cache : BlockhashCache} {moments : List Moment}
    {s : Assembler × BlockhashCache} {r : Option (Except ClientError BlockReference)}
    (hopen : a.checkOpen "fetch a block reference" = .ok ())
    (h : (fetchReference (a, cache)).Timed moments s r)
    (hanswered : ∀ e ∈ Moment.exchanges moments, e.AnsweredBy answer) :
    (∃ now rest, moments = .clock now :: rest ∧
      r = some (a.taken (cache.given (answer .blockReference) now))) ∧
      submissions (Moment.exchanges moments) = [] ∧
      ∀ reference, r = some (.ok reference) → a.compile reference = .ok s.1 := by
  obtain ⟨now, cache', hfetched⟩ := timed_fetchReference hopen h
  have hnone {x : Option (Except ClientError BlockReference)}
      (h : cache.Fetches now moments cache' x) :
      submissions (Moment.exchanges moments) = [] := by
    refine submissions_eq_nil fun e he _ _ hsubmit ↦ ?_
    cases (h.queries e he).symm.trans hsubmit
  rcases hfetched with ⟨stop, hfetch, -, hr⟩ | ⟨reference, hfetch, hcompiled⟩
  · obtain ⟨rest, hm⟩ := hfetch.exists_cons
    refine ⟨⟨now, rest, hm, ?_⟩, hnone hfetch,
      fun reference hok ↦ absurd (hr.symm.trans hok) (stop_ne_ok stop _)⟩
    have hstop := hfetch.eq_given hanswered
    cases stop with
    | none => cases hstop
    | some e =>
      rw [hr, taken, ← Option.some.inj hstop]
      rfl
  · obtain ⟨rest, hm⟩ := hfetch.exists_cons
    have htaken := taken_of_compile (a := a) (hfetch.eq_given hanswered)
    rcases hcompiled with ⟨e, hcompile, -, hr⟩ | ⟨a', hcompile, hs, hr⟩
    · rw [hcompile] at htaken
      refine ⟨⟨now, rest, hm, by rw [hr, htaken]; rfl⟩, hnone hfetch, fun reference hok ↦ ?_⟩
      cases hr.symm.trans hok
    · rw [hcompile] at htaken
      refine ⟨⟨now, rest, hm, by rw [hr, htaken]; rfl⟩, hnone hfetch, fun reference hok ↦ ?_⟩
      cases hr.symm.trans hok
      rw [hcompile, hs]

end Assembler

namespace Context

variable {ctx : Context} {instructions : List Ledger.Instruction} {payer : Signer}
  {others : List Signer} {cache₁ cache₂ cache₁' cache₂' : BlockhashCache}
  {moments₁ moments₂ : List Moment} {r₁ r₂ : Option (Except ClientError Submission)}

/-- Where the clock is first read to see whether the cached reference counts, both get the same
reference. -/
def SameReference (answer : (query : Query) → query.Answer) (cache₁ : BlockhashCache)
    (moments₁ : List Moment) (cache₂ : BlockhashCache) (moments₂ : List Moment) : Prop :=
  ∀ now₁ ∈ (Moment.readings moments₁).head?, ∀ now₂ ∈ (Moment.readings moments₂).head?,
    cache₁.given (answer .blockReference) now₁ = cache₂.given (answer .blockReference) now₂

def SameAssembler (st₁ st₂ : Assembler × BlockhashCache) : Prop := st₁.1 = st₂.1

theorem alike_submit {handle : ClientError → Attempt (Assembler × BlockhashCache) Submission}
    (hhandle : ∀ e st, handle e st = .done (st.1, afterError st.2 e) (.error e)) (a : Assembler) :
    Alike answer SameAssembler (tryCatch (onLeft Assembler.submit) handle (a, cache₁))
      (tryCatch (onLeft Assembler.submit) handle (a, cache₂)) := by
  rcases Assembler.submit_cases a with ⟨e, hsubmit⟩ | ⟨wire, lastValidHeight, hsubmit⟩
  · rw [submit_of_error hhandle hsubmit, submit_of_error hhandle hsubmit]
    exact alike_done _ rfl
  · rw [submit_of_wait hhandle hsubmit, submit_of_wait hhandle hsubmit]
    exact alike_wait (alike_done _ rfl)

theorem alike_of_fetched {handle : ClientError → Attempt (Assembler × BlockhashCache) Submission}
    (hhandle : ∀ e st, handle e st = .done (st.1, afterError st.2 e) (.error e))
    (signers : List Signer) (a : Assembler) :
    Alike answer SameAssembler
      ((do onLeft (Assembler.sign signers); tryCatch (onLeft Assembler.submit) handle :
        Attempt (Assembler × BlockhashCache) Submission) (a, cache₁))
      ((do onLeft (Assembler.sign signers); tryCatch (onLeft Assembler.submit) handle :
        Attempt (Assembler × BlockhashCache) Submission) (a, cache₂)) := by
  refine alike_bind ?_ fun _ st₁ st₂ hst ↦ ?_
  · exact (Assembler.alike_sign signers a).mapState fun a₁ a₂ ha ↦ ha
  · obtain ⟨a₁, cache₁⟩ := st₁
    obtain ⟨a₂, cache₂⟩ := st₂
    cases hst
    exact alike_submit hhandle a₁

/-- Sending comes to the same if the block reference is the same, and everything else is answered in
the same way. -/
theorem send_determined
    (h₁ : (ctx.send instructions (payer :: others) cache₁).Timed moments₁ cache₁' r₁)
    (h₂ : (ctx.send instructions (payer :: others) cache₂).Timed moments₂ cache₂' r₂)
    (hanswered₁ : ∀ e ∈ Moment.exchanges moments₁, e.AnsweredBy answer)
    (hanswered₂ : ∀ e ∈ Moment.exchanges moments₂, e.AnsweredBy answer)
    (hsame : SameReference answer cache₁ moments₁ cache₂ moments₂) :
    r₁ = r₂ ∧ Assembler.submissions (Moment.exchanges moments₁) =
      Assembler.submissions (Moment.exchanges moments₂) := by
  rw [send, ofExcept_bind_of_ok _ _ (start_add _ _)] at h₁ h₂
  obtain ⟨st₁, h₁, -⟩ := timed_withOwn_iff.1 h₁
  obtain ⟨st₂, h₂, -⟩ := timed_withOwn_iff.1 h₂
  rw [discard_bind] at h₁ h₂
  have hopen :=
    checkOpen_building payer.address (ctx.budget ++ instructions) "fetch a block reference"
  by_cases hempty : ctx.budget ++ instructions = []
  · rw [if_pos hempty] at hopen
    rw [bind_apply, fetchReference_of_error hopen] at h₁ h₂
    obtain ⟨hm₁, -, hr₁⟩ := timed_done_iff.1 h₁
    obtain ⟨hm₂, -, hr₂⟩ := timed_done_iff.1 h₂
    rw [hr₁, hr₂, hm₁, hm₂]
    exact ⟨rfl, rfl⟩
  rw [if_neg hempty] at hopen
  obtain ⟨first₁, rest₁, ⟨a₁, _⟩, x₁, hm₁, hfetch₁, hfirst₁, hrest₁, herror₁, hok₁⟩ :=
    timed_bind_answered h₁ hanswered₁
  obtain ⟨first₂, rest₂, ⟨a₂, _⟩, x₂, hm₂, hfetch₂, hfirst₂, hrest₂, herror₂, hok₂⟩ :=
    timed_bind_answered h₂ hanswered₂
  obtain ⟨⟨now₁, tail₁, htail₁, hx₁⟩, hnone₁, hcompile₁⟩ :=
    Assembler.fetchReference_answered hopen hfetch₁ hfirst₁
  obtain ⟨⟨now₂, tail₂, htail₂, hx₂⟩, hnone₂, hcompile₂⟩ :=
    Assembler.fetchReference_answered hopen hfetch₂ hfirst₂
  have hnow₁ : now₁ ∈ (Moment.readings moments₁).head? := by
    rw [hm₁, htail₁]
    rfl
  have hnow₂ : now₂ ∈ (Moment.readings moments₂).head? := by
    rw [hm₂, htail₂]
    rfl
  rw [hsame now₁ hnow₁ now₂ hnow₂] at hx₁
  cases hx₁.trans hx₂.symm
  rw [hm₁, hm₂, Moment.exchanges_append, Moment.exchanges_append, Assembler.submissions_append,
    Assembler.submissions_append, hnone₁, hnone₂]
  cases x₁ with
  | error e =>
    obtain ⟨he₁, -, hr₁⟩ := herror₁ e rfl
    obtain ⟨he₂, -, hr₂⟩ := herror₂ e rfl
    rw [he₁, he₂, hr₁, hr₂]
    exact ⟨rfl, rfl⟩
  | ok reference =>
    cases (hcompile₁ reference rfl).symm.trans (hcompile₂ reference rfl)
    obtain ⟨he, -, hr⟩ :=
      alike_of_fetched (fun e _ ↦ by cases e <;> rfl) (payer :: others) a₁ _ _ _ _ _ _
        (hok₁ reference rfl) (hok₂ reference rfl) hrest₁ hrest₂
    rw [he]
    exact ⟨hr, rfl⟩

end Context

end ValidatorClient
