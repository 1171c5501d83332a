import ValidatorClient.Proofs.Process

namespace ValidatorClient

open Ledger

variable {σ τ α β : Type} {answer : (query : Query) → query.Answer}

def Exchange.AnsweredBy (answer : (query : Query) → query.Answer) (e : Exchange) : Prop :=
  e.answer = some (answer e.query)

namespace Process

variable {p : Process σ α} {q : Process τ α} {R : σ → τ → Prop} {s : σ} {t : τ}

theorem Timed.exists_result {moments : List Moment} {r : Option α} (h : p.Timed moments s r)
    (hanswered : ∀ e ∈ Moment.exchanges moments, e.AnsweredBy answer) : ∃ a, r = some a := by
  induction h with
  | done s a => exact ⟨a, rfl⟩
  | clock now _ ih => exact ih hanswered
  | givenUp s query next => cases hanswered _ (List.mem_singleton_self _)
  | answered _ _ ih => exact ih fun e he ↦ hanswered e (List.mem_cons_of_mem _ he)

theorem exists_answered_of_run (answer : (query : Query) → query.Answer) (p : Process σ α)
    (now : Nat) :
    ∃ moments, p.Timed moments (p.run (m := Id) (fun query ↦ (0, answer query)) none now).2.1
        (p.run (m := Id) (fun query ↦ (0, answer query)) none now).2.2 ∧
      ∀ e ∈ Moment.exchanges moments, e.AnsweredBy answer := by
  induction p generalizing now with
  | done s a => exact ⟨[], .done s a, by simp⟩
  | clock k ih =>
    obtain ⟨moments, h, hanswered⟩ := ih now now
    exact ⟨_, .clock now h, hanswered⟩
  | wait s query k ih =>
    obtain ⟨moments, h, hanswered⟩ := ih (answer query) (now + 0)
    exact ⟨_, .answered (answer query) h, List.forall_mem_cons.2 ⟨rfl, hanswered⟩⟩

/-- Answered in the same way, the two ask the same, end in related states and have the same
result. -/
def Alike (answer : (query : Query) → query.Answer) (R : σ → τ → Prop) (p : Process σ α)
    (q : Process τ α) :
    Prop :=
  ∀ moments₁ moments₂ s t r₁ r₂, p.Timed moments₁ s r₁ → q.Timed moments₂ t r₂ →
    (∀ e ∈ Moment.exchanges moments₁, e.AnsweredBy answer) →
    (∀ e ∈ Moment.exchanges moments₂, e.AnsweredBy answer) →
    Moment.exchanges moments₁ = Moment.exchanges moments₂ ∧ R s t ∧ r₁ = r₂

theorem alike_done (a : α) (hR : R s t) : Alike answer R (.done s a) (.done t a) := by
  intro moments₁ moments₂ s' t' r₁ r₂ h₁ h₂ _ _
  obtain ⟨hm₁, hs, hr₁⟩ := timed_done_iff.1 h₁
  obtain ⟨hm₂, ht, hr₂⟩ := timed_done_iff.1 h₂
  rw [hm₁, hm₂, hs, ht, hr₁, hr₂]
  exact ⟨rfl, hR, rfl⟩

theorem alike_wait {query : Query} {next₁ : query.Answer → Process σ α}
    {next₂ : query.Answer → Process τ α}
    (h : Alike answer R (next₁ (answer query)) (next₂ (answer query))) :
    Alike answer R (.wait s query next₁) (.wait t query next₂) := by
  intro moments₁ moments₂ s' t' r₁ r₂ h₁ h₂ hanswered₁ hanswered₂
  rcases timed_wait_iff.1 h₁ with ⟨hm₁, -⟩ | ⟨answer₁, rest₁, hm₁, hnext₁⟩
  · subst hm₁
    cases hanswered₁ _ (List.mem_singleton_self _)
  rcases timed_wait_iff.1 h₂ with ⟨hm₂, -⟩ | ⟨answer₂, rest₂, hm₂, hnext₂⟩
  · subst hm₂
    cases hanswered₂ _ (List.mem_singleton_self _)
  subst hm₁ hm₂
  obtain ⟨hanswer₁, hanswered₁⟩ := List.forall_mem_cons.1 hanswered₁
  obtain ⟨hanswer₂, hanswered₂⟩ := List.forall_mem_cons.1 hanswered₂
  rw [Option.some.inj hanswer₁] at hnext₁ ⊢
  rw [Option.some.inj hanswer₂] at hnext₂ ⊢
  obtain ⟨he, hR, hr⟩ := h _ _ _ _ _ _ hnext₁ hnext₂ hanswered₁ hanswered₂
  exact ⟨by rw [Moment.exchanges_exchange, Moment.exchanges_exchange, he], hR, hr⟩

theorem Alike.mapState {σ' τ' : Type} {f : σ → σ'} {g : τ → τ'} {R' : σ' → τ' → Prop}
    (h : Alike answer R p q) (hR : ∀ s t, R s t → R' (f s) (g t)) :
    Alike answer R' (p.mapState f) (q.mapState g) := by
  intro moments₁ moments₂ s' t' r₁ r₂ h₁ h₂ hanswered₁ hanswered₂
  obtain ⟨s, h₁, hs⟩ := timed_mapState_iff.1 h₁
  obtain ⟨t, h₂, ht⟩ := timed_mapState_iff.1 h₂
  obtain ⟨he, hst, hr⟩ := h _ _ _ _ _ _ h₁ h₂ hanswered₁ hanswered₂
  rw [hs, ht]
  exact ⟨he, hR s t hst, hr⟩

end Process

namespace Attempt

open Process

variable {s : σ} {t : τ}

theorem timed_bind_answered {act : Attempt σ α} {next : α → Attempt σ β} {moments : List Moment}
    {s' : σ} {r : Option (Except ClientError β)} (h : ((act >>= next) s).Timed moments s' r)
    (hanswered : ∀ e ∈ Moment.exchanges moments, e.AnsweredBy answer) :
    ∃ first rest t x, moments = first ++ rest ∧ (act s).Timed first t (some x) ∧
      (∀ e ∈ Moment.exchanges first, e.AnsweredBy answer) ∧
      (∀ e ∈ Moment.exchanges rest, e.AnsweredBy answer) ∧
      (∀ e, x = .error e → rest = [] ∧ s' = t ∧ r = some (.error e)) ∧
      ∀ a, x = .ok a → (next a t).Timed rest s' r := by
  rcases timed_bind_cases h with ⟨stop, hact, hr⟩ | ⟨first, rest, t, a, hm, hact, hrest⟩
  · obtain ⟨x, hx⟩ := hact.exists_result hanswered
    cases stop with
    | none => cases hx
    | some e =>
      refine ⟨moments, [], s', .error e, (List.append_nil _).symm, hact, hanswered,
        nofun, ?_, nofun⟩
      intro e' he
      cases he
      exact ⟨rfl, rfl, hr⟩
  · rw [hm, Moment.exchanges_append, List.forall_mem_append] at hanswered
    refine ⟨first, rest, t, .ok a, hm, hact, hanswered.1, hanswered.2, nofun, ?_⟩
    intro a' ha
    cases ha
    exact hrest

theorem alike_bind {R : σ → τ → Prop} {act₁ : Attempt σ α} {act₂ : Attempt τ α}
    {next₁ : α → Attempt σ β} {next₂ : α → Attempt τ β} (h : Alike answer R (act₁ s) (act₂ t))
    (hnext : ∀ a s t, R s t → Alike answer R (next₁ a s) (next₂ a t)) :
    Alike answer R ((act₁ >>= next₁) s) ((act₂ >>= next₂) t) := by
  intro moments₁ moments₂ s' t' r₁ r₂ h₁ h₂ hanswered₁ hanswered₂
  obtain ⟨first₁, rest₁, s₁, x₁, hm₁, hact₁, hfirst₁, hrest₁, herror₁, hok₁⟩ :=
    timed_bind_answered h₁ hanswered₁
  obtain ⟨first₂, rest₂, t₂, x₂, hm₂, hact₂, hfirst₂, hrest₂, herror₂, hok₂⟩ :=
    timed_bind_answered h₂ hanswered₂
  obtain ⟨hfirst, hR, hx⟩ := h _ _ _ _ _ _ hact₁ hact₂ hfirst₁ hfirst₂
  cases hx
  rw [hm₁, hm₂, Moment.exchanges_append, Moment.exchanges_append, hfirst]
  cases x₁ with
  | error e =>
    obtain ⟨he₁, hs, hr₁⟩ := herror₁ e rfl
    obtain ⟨he₂, ht, hr₂⟩ := herror₂ e rfl
    rw [he₁, he₂, hs, ht, hr₁, hr₂]
    exact ⟨rfl, hR, rfl⟩
  | ok a =>
    obtain ⟨hrest, hR, hr⟩ := hnext a _ _ hR _ _ _ _ _ _ (hok₁ a rfl) (hok₂ a rfl) hrest₁ hrest₂
    rw [hrest]
    exact ⟨rfl, hR, hr⟩

end Attempt

end ValidatorClient
