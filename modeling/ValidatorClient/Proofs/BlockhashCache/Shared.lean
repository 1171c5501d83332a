import Mathlib.Logic.Function.Basic
import ValidatorClient.Proofs.BlockhashCache

namespace ValidatorClient.BlockhashCache

open Attempt Process

inductive Call where
  | get
  | invalidate
  | observe (height : UInt64)
  | peek

def Call.act : Call → Attempt BlockhashCache (Option BlockReference)
  | get => do return some (← fetch)
  | invalidate => do
    modify BlockhashCache.invalidate
    return none
  | observe height => do
    modify (·.observe height)
    return none
  | peek => do return (← MonadState.get).peek

inductive Status where
  | idle
  | waiting (call : Call)
  | holding (call : Call) (moments : List Moment)
      (work : Process BlockhashCache (Except ClientError (Option BlockReference)))

namespace Status

def Holds : Status → Prop
  | holding _ _ _ => True
  | _ => False

def Asks (status : Status) : Prop :=
  ∃ call moments left query next, status = .holding call moments (.wait left query next)

theorem Asks.holds {status : Status} (h : status.Asks) : status.Holds := by
  obtain ⟨_, _, _, _, _, h⟩ := h
  rw [h]
  trivial

end Status

/-- A call that is over: what happened while it had the lock, the cache that it left, and its result
unless it was cancelled. -/
structure Served (κ : Type) where
  caller : κ
  call : Call
  moments : List Moment
  left : BlockhashCache
  result : Option (Except ClientError (Option BlockReference))

structure Shared (κ : Type) where
  now : Nat
  cache : BlockhashCache
  status : κ → Status
  log : List (Served κ)

namespace Shared

variable {κ : Type} [DecidableEq κ]

def start (ttl : Nat) : Shared κ := ⟨0, .empty ttl, fun _ ↦ .idle, []⟩

def become (s : Shared κ) (caller : κ) (status : Status) : Shared κ :=
  { s with status := Function.update s.status caller status }

def release (s : Shared κ) (e : Served κ) : Shared κ :=
  { now := s.now, cache := e.left, status := Function.update s.status e.caller .idle,
    log := s.log ++ [e] }

/-- Whoever waits may get the lock, the clock never goes back, and a caller may be cancelled
wherever they wait. -/
inductive Step : Shared κ → Shared κ → Prop
  | pass {s : Shared κ} {later : Nat} (h : s.now ≤ later) : Step s { s with now := later }
  | call {s : Shared κ} {caller : κ} (call : Call) (h : s.status caller = .idle) :
      Step s (s.become caller (.waiting call))
  | leave {s : Shared κ} {caller : κ} {call : Call} (h : s.status caller = .waiting call) :
      Step s (s.become caller .idle)
  | lock {s : Shared κ} {caller : κ} {call : Call} (h : s.status caller = .waiting call)
      (hfree : ∀ other, ¬ (s.status other).Holds) :
      Step s (s.become caller (.holding call [] (call.act s.cache)))
  | clock {s : Shared κ} {caller : κ} {call : Call} {moments : List Moment}
      {next : Nat → Process BlockhashCache (Except ClientError (Option BlockReference))}
      (h : s.status caller = .holding call moments (.clock next)) :
      Step s (s.become caller (.holding call (moments ++ [.clock s.now]) (next s.now)))
  | answer {s : Shared κ} {caller : κ} {call : Call} {moments : List Moment} {left : BlockhashCache}
      {query : Query}
      {next : query.Answer → Process BlockhashCache (Except ClientError (Option BlockReference))}
      (h : s.status caller = .holding call moments (.wait left query next))
      (answer : query.Answer) :
      Step s
        (s.become caller
          (.holding call (moments ++ [.exchange ⟨query, some answer⟩]) (next answer)))
  | finish {s : Shared κ} {caller : κ} {call : Call} {moments : List Moment} {left : BlockhashCache}
      {result : Except ClientError (Option BlockReference)}
      (h : s.status caller = .holding call moments (.done left result)) :
      Step s (s.release ⟨caller, call, moments, left, some result⟩)
  | cancel {s : Shared κ} {caller : κ} {call : Call} {moments : List Moment} {left : BlockhashCache}
      {query : Query}
      {next : query.Answer → Process BlockhashCache (Except ClientError (Option BlockReference))}
      (h : s.status caller = .holding call moments (.wait left query next)) :
      Step s (s.release ⟨caller, call, moments ++ [.exchange ⟨query, none⟩], left, none⟩)

inductive Run (ttl : Nat) : Shared κ → Prop
  | start : Run ttl (start ttl)
  | step {s s' : Shared κ} (h : Run ttl s) (hstep : Step s s') : Run ttl s'

end Shared

section Sequential

variable {κ : Type} {c c' : BlockhashCache} {log rest : List (Served κ)} {e : Served κ}
  {moments : List Moment} {left : BlockhashCache}
  {result : Option (Except ClientError (Option BlockReference))}

/-- The calls leave the cache as if each had been made after the one before was over. -/
def Follows : BlockhashCache → List (Served κ) → BlockhashCache → Prop
  | c, [], c' => c' = c
  | c, e :: log, c' => (e.call.act c).Timed e.moments e.left e.result ∧ Follows e.left log c'

theorem follows_append_iff :
    Follows c (log ++ rest) c' ↔ ∃ between, Follows c log between ∧ Follows between rest c' := by
  induction log generalizing c with
  | nil => simp [Follows]
  | cons e log ih => simp [Follows, ih, and_assoc]

theorem follows_concat_iff :
    Follows c (log ++ [e]) c' ↔
      ∃ between, Follows c log between ∧ (e.call.act between).Timed e.moments e.left e.result ∧
        c' = e.left := by
  rw [follows_append_iff]
  rfl

def times (log : List (Served κ)) : List Nat := log.flatMap fun e ↦ Moment.readings e.moments

@[simp] theorem times_append : times (log ++ rest) = times log ++ times rest := List.flatMap_append

@[simp] theorem times_cons : times (e :: log) = Moment.readings e.moments ++ times log := rfl

@[simp] theorem times_nil : times ([] : List (Served κ)) = [] := rfl

end Sequential

namespace Shared

variable {κ : Type} {s s' : Shared κ} {ttl : Nat}

/-- What is left of the work goes on from what was done for the call so far, at times in order. -/
structure Works (s : Shared κ) (call : Call) (moments : List Moment)
    (work : Process BlockhashCache (Except ClientError (Option BlockReference))) : Prop where
  goesOn : ∀ rest left result, work.Timed rest left result →
    (call.act s.cache).Timed (moments ++ rest) left result
  ascends : (times s.log ++ Moment.readings moments ++ [s.now]).Pairwise (· ≤ ·)

/-- What holds of all states that can be reached. -/
structure Sequential (ttl : Nat) (s : Shared κ) : Prop where
  exclusive : ∀ caller other, (s.status caller).Holds → (s.status other).Holds → caller = other
  follows : Follows (.empty ttl) s.log s.cache
  ascends : (times s.log ++ [s.now]).Pairwise (· ≤ ·)
  works : ∀ caller call moments work, s.status caller = .holding call moments work →
    s.Works call moments work

theorem pairwise_concat_of_le {times : List Nat} {now later : Nat}
    (h : (times ++ [now]).Pairwise (· ≤ ·)) (hle : now ≤ later) :
    (times ++ [later]).Pairwise (· ≤ ·) := by
  obtain ⟨htimes, -, hlast⟩ := List.pairwise_append.1 h
  refine List.pairwise_append.2 ⟨htimes, List.pairwise_singleton _ _, fun t ht t' ht' ↦ ?_⟩
  rw [List.mem_singleton.1 ht']
  exact Nat.le_trans (hlast t ht now (List.mem_singleton_self now)) hle

theorem sequential_start : (start ttl : Shared κ).Sequential ttl where
  exclusive _ _ h := h.elim
  follows := rfl
  ascends := List.pairwise_singleton _ _
  works _ _ _ _ h := by cases h

variable [DecidableEq κ] {caller other : κ} {status : Status} {e : Served κ}

theorem become_status_self : (s.become caller status).status caller = status :=
  Function.update_self ..

theorem become_status_of_ne (h : other ≠ caller) :
    (s.become caller status).status other = s.status other :=
  Function.update_of_ne h ..

theorem release_status_self : (s.release e).status e.caller = .idle := Function.update_self ..

theorem release_status_of_ne (h : other ≠ e.caller) : (s.release e).status other = s.status other :=
  Function.update_of_ne h ..

theorem Sequential.become (h : s.Sequential ttl)
    (hholds : status.Holds → (s.status caller).Holds ∨ ∀ other, ¬ (s.status other).Holds)
    (hworks : ∀ call moments work, status = .holding call moments work →
      s.Works call moments work) :
    (s.become caller status).Sequential ttl where
  exclusive := by
    have halone {other : κ} (hstatus : status.Holds) (hother : (s.status other).Holds) :
        caller = other := by
      rcases hholds hstatus with hcaller | hnone
      · exact h.exclusive caller other hcaller hother
      · exact absurd hother (hnone other)
    -- Only the caller's status is new, so two who hold the lock are both old, or one is the caller.
    intro a b ha hb
    by_cases hac : a = caller <;> by_cases hbc : b = caller
    · rw [hac, hbc]
    · rw [hac, become_status_self] at ha
      rw [become_status_of_ne hbc] at hb
      rw [hac, halone ha hb]
    · rw [become_status_of_ne hac] at ha
      rw [hbc, become_status_self] at hb
      rw [hbc, halone hb ha]
    · rw [become_status_of_ne hac] at ha
      rw [become_status_of_ne hbc] at hb
      exact h.exclusive a b ha hb
  follows := h.follows
  ascends := h.ascends
  works other call moments work hother := by
    have hold : s.Works call moments work := by
      by_cases hcaller : other = caller
      · rw [hcaller, become_status_self] at hother
        exact hworks call moments work hother
      · rw [become_status_of_ne hcaller] at hother
        exact h.works other call moments work hother
    exact ⟨hold.goesOn, hold.ascends⟩

theorem Sequential.release (h : s.Sequential ttl) (hcaller : (s.status e.caller).Holds)
    (hacts : (e.call.act s.cache).Timed e.moments e.left e.result)
    (hascends : (times s.log ++ Moment.readings e.moments ++ [s.now]).Pairwise (· ≤ ·)) :
    (s.release e).Sequential ttl := by
  have hidle (other : κ) : ¬ ((s.release e).status other).Holds := by
    intro hother
    by_cases heq : other = e.caller
    · rw [heq, release_status_self] at hother
      exact hother
    · rw [release_status_of_ne heq] at hother
      exact heq (h.exclusive other e.caller hother hcaller)
  refine ⟨fun a _ ha _ ↦ absurd ha (hidle a),
    follows_concat_iff.2 ⟨s.cache, h.follows, hacts, rfl⟩, ?_, ?_⟩
  · simpa [Shared.release] using hascends
  · intro caller call moments work hstatus
    refine absurd ?_ (hidle caller)
    rw [hstatus]
    trivial

theorem Sequential.step (h : s.Sequential ttl) (hstep : s.Step s') : s'.Sequential ttl := by
  cases hstep with
  | pass hle =>
    refine ⟨h.exclusive, h.follows, pairwise_concat_of_le h.ascends hle,
      fun caller call moments work hc ↦ ?_⟩
    obtain ⟨hgoesOn, hascends⟩ := h.works caller call moments work hc
    exact ⟨hgoesOn, pairwise_concat_of_le hascends hle⟩
  | call => exact h.become False.elim nofun
  | leave => exact h.become False.elim nofun
  | lock hwaits hfree =>
    refine h.become (fun _ ↦ .inr hfree) fun call moments work heq ↦ ?_
    cases heq
    exact ⟨fun _ _ _ ↦ id, by simpa using h.ascends⟩
  | @clock caller call moments next hholds =>
    obtain ⟨hgoesOn, hascends⟩ := h.works _ _ _ _ hholds
    refine h.become (fun _ ↦ .inl (by rw [hholds]; trivial)) fun call' moments' work heq ↦ ?_
    cases heq
    refine ⟨fun rest left result htimed ↦ ?_, ?_⟩
    · rw [List.append_assoc]
      exact hgoesOn _ left result (.clock s.now htimed)
    · simpa [List.pairwise_append] using hascends
  | @answer caller call moments left query next hholds answer =>
    obtain ⟨hgoesOn, hascends⟩ := h.works _ _ _ _ hholds
    refine h.become (fun _ ↦ .inl (by rw [hholds]; trivial)) fun call' moments' work heq ↦ ?_
    cases heq
    refine ⟨fun rest left result htimed ↦ ?_, ?_⟩
    · rw [List.append_assoc]
      exact hgoesOn _ left result (.answered answer htimed)
    · simpa using hascends
  | @finish caller call moments left result hholds =>
    obtain ⟨hgoesOn, hascends⟩ := h.works _ _ _ _ hholds
    refine h.release (by rw [hholds]; trivial) ?_ hascends
    simpa using hgoesOn [] left (some result) (.done left result)
  | @cancel caller call moments left query next hholds =>
    obtain ⟨hgoesOn, hascends⟩ := h.works _ _ _ _ hholds
    refine h.release (by rw [hholds]; trivial) (hgoesOn _ left none (.givenUp left query next)) ?_
    simpa using hascends

theorem Run.sequential (h : Run ttl s) : s.Sequential ttl := by
  induction h with
  | start => exact sequential_start
  | step _ hstep ih => exact ih.step hstep

end Shared

end ValidatorClient.BlockhashCache
