import ValidatorClient.Process

namespace ValidatorClient

/-- What was asked, and the answer unless the wait for it was given up. -/
structure Exchange where
  query : Query
  answer : Option query.Answer

/-- A contact with the outside: the clock is read, or something is asked. -/
inductive Moment where
  | clock (now : Nat)
  | exchange (e : Exchange)

namespace Moment

def exchanges (moments : List Moment) : List Exchange :=
  moments.filterMap fun moment ↦
    match moment with
    | clock _ => none
    | exchange e => some e

def readings (moments : List Moment) : List Nat :=
  moments.filterMap fun moment ↦
    match moment with
    | clock now => some now
    | exchange _ => none

variable {moments rest : List Moment}

@[simp] theorem exchanges_nil : exchanges [] = [] := rfl

@[simp] theorem exchanges_clock {now : Nat} :
    exchanges (clock now :: moments) = exchanges moments := rfl

@[simp] theorem exchanges_exchange {e : Exchange} :
    exchanges (exchange e :: moments) = e :: exchanges moments := rfl

@[simp] theorem exchanges_append :
    exchanges (moments ++ rest) = exchanges moments ++ exchanges rest :=
  List.filterMap_append

@[simp] theorem readings_nil : readings [] = [] := rfl

@[simp] theorem readings_clock {now : Nat} :
    readings (clock now :: moments) = now :: readings moments := rfl

@[simp] theorem readings_exchange {e : Exchange} :
    readings (exchange e :: moments) = readings moments := rfl

@[simp] theorem readings_append : readings (moments ++ rest) = readings moments ++ readings rest :=
  List.filterMap_append

end Moment

namespace Process

variable {σ τ α β : Type} {p : Process σ α} {exchanges : List Exchange} {moments : List Moment}
  {s s' : σ} {r : Option α}

/-- A way that a process may go: its exchanges with the outside, the state that it leaves, and its
result unless it was given up. The clock may show any time, and any wait may be given up. -/
inductive Trace : Process σ α → List Exchange → σ → Option α → Prop
  | done (s : σ) (a : α) : Trace (.done s a) [] s (some a)
  | clock {next : Nat → Process σ α} {exchanges : List Exchange} {s : σ} {r : Option α} (now : Nat)
      (h : Trace (next now) exchanges s r) : Trace (.clock next) exchanges s r
  | givenUp (s : σ) (query : Query) (next : query.Answer → Process σ α) :
      Trace (.wait s query next) [⟨query, none⟩] s none
  | answered {s s' : σ} {query : Query} {next : query.Answer → Process σ α}
      {exchanges : List Exchange} {r : Option α} (answer : query.Answer)
      (h : Trace (next answer) exchanges s' r) :
      Trace (.wait s query next) (⟨query, some answer⟩ :: exchanges) s' r

theorem trace_done_iff {a : α} :
    Trace (.done s a) exchanges s' r ↔ exchanges = [] ∧ s' = s ∧ r = some a := by
  constructor
  · intro h
    cases h
    exact ⟨rfl, rfl, rfl⟩
  · intro h
    obtain ⟨he, hs, hr⟩ := h
    rw [he, hs, hr]
    exact .done s a

theorem trace_wait_iff {query : Query} {next : query.Answer → Process σ α} :
    Trace (.wait s query next) exchanges s' r ↔
      (exchanges = [⟨query, none⟩] ∧ s' = s ∧ r = none) ∨
      ∃ answer rest, exchanges = ⟨query, some answer⟩ :: rest ∧ Trace (next answer) rest s' r := by
  constructor
  · intro h
    cases h with
    | givenUp => exact .inl ⟨rfl, rfl, rfl⟩
    | answered answer h => exact .inr ⟨answer, _, rfl, h⟩
  · intro h
    rcases h with ⟨he, hs, hr⟩ | ⟨answer, rest, he, h⟩
    · rw [he, hs, hr]
      exact .givenUp s query next
    · rw [he]
      exact .answered answer h

theorem Trace.exists_unanswered (h : p.Trace exchanges s' none) :
    ∃ e ∈ exchanges, e.answer = none := by
  generalize hr : none = r at h
  induction h with
  | done => cases hr
  | clock _ _ ih => exact ih hr
  | givenUp => exact ⟨_, List.mem_singleton_self _, rfl⟩
  | answered _ _ ih =>
    obtain ⟨e, hmem, he⟩ := ih hr
    exact ⟨e, List.mem_cons_of_mem _ hmem, he⟩

/-- A way that a process may go, with the times that the clock showed. -/
inductive Timed : Process σ α → List Moment → σ → Option α → Prop
  | done (s : σ) (a : α) : Timed (.done s a) [] s (some a)
  | clock {next : Nat → Process σ α} {moments : List Moment} {s : σ} {r : Option α} (now : Nat)
      (h : Timed (next now) moments s r) : Timed (.clock next) (.clock now :: moments) s r
  | givenUp (s : σ) (query : Query) (next : query.Answer → Process σ α) :
      Timed (.wait s query next) [.exchange ⟨query, none⟩] s none
  | answered {s s' : σ} {query : Query} {next : query.Answer → Process σ α} {moments : List Moment}
      {r : Option α} (answer : query.Answer) (h : Timed (next answer) moments s' r) :
      Timed (.wait s query next) (.exchange ⟨query, some answer⟩ :: moments) s' r

theorem timed_done_iff {a : α} :
    Timed (.done s a) moments s' r ↔ moments = [] ∧ s' = s ∧ r = some a := by
  constructor
  · intro h
    cases h
    exact ⟨rfl, rfl, rfl⟩
  · intro h
    obtain ⟨hm, hs, hr⟩ := h
    rw [hm, hs, hr]
    exact .done s a

theorem timed_clock_iff {next : Nat → Process σ α} :
    Timed (.clock next) moments s' r ↔
      ∃ now rest, moments = .clock now :: rest ∧ Timed (next now) rest s' r := by
  constructor
  · intro h
    cases h with
    | clock now h => exact ⟨now, _, rfl, h⟩
  · intro h
    obtain ⟨now, rest, hm, h⟩ := h
    rw [hm]
    exact .clock now h

theorem timed_wait_iff {query : Query} {next : query.Answer → Process σ α} :
    Timed (.wait s query next) moments s' r ↔
      (moments = [.exchange ⟨query, none⟩] ∧ s' = s ∧ r = none) ∨
      ∃ answer rest, moments = .exchange ⟨query, some answer⟩ :: rest ∧
        Timed (next answer) rest s' r := by
  constructor
  · intro h
    cases h with
    | givenUp => exact .inl ⟨rfl, rfl, rfl⟩
    | answered answer h => exact .inr ⟨answer, _, rfl, h⟩
  · intro h
    rcases h with ⟨hm, hs, hr⟩ | ⟨answer, rest, hm, h⟩
    · rw [hm, hs, hr]
      exact .givenUp s query next
    · rw [hm]
      exact .answered answer h

theorem Timed.trace (h : p.Timed moments s r) : p.Trace (Moment.exchanges moments) s r := by
  induction h with
  | done s a => exact .done s a
  | clock now _ ih => exact .clock now ih
  | givenUp s query next => exact .givenUp s query next
  | answered answer _ ih => exact .answered answer ih

theorem trace_iff_timed :
    p.Trace exchanges s r ↔ ∃ moments, p.Timed moments s r ∧
      Moment.exchanges moments = exchanges := by
  constructor
  · intro h
    induction h with
    | done s a => exact ⟨[], .done s a, rfl⟩
    | clock now _ ih =>
      obtain ⟨moments, h, he⟩ := ih
      exact ⟨_, .clock now h, he⟩
    | givenUp s query next => exact ⟨_, .givenUp s query next, rfl⟩
    | answered answer _ ih =>
      obtain ⟨moments, h, he⟩ := ih
      exact ⟨_, .answered answer h, by rw [Moment.exchanges_exchange, he]⟩
  · intro h
    obtain ⟨moments, h, he⟩ := h
    rw [← he]
    exact h.trace

theorem bind_bind {γ : Type} (p : Process σ α) (f : σ → α → Process σ β) (g : σ → β → Process σ γ) :
    (p.bind f).bind g = p.bind fun s a ↦ (f s a).bind g := by
  induction p with
  | done s a => rfl
  | clock k ih => exact congrArg clock (funext ih)
  | wait s query k ih => exact congrArg (wait s query) (funext ih)

/-- What comes after a process is reached only if the process ends. -/
theorem timed_bind_iff {next : σ → α → Process σ β} {r : Option β} :
    (p.bind next).Timed moments s' r ↔
      (p.Timed moments s' none ∧ r = none) ∨
      ∃ first rest s a, moments = first ++ rest ∧ p.Timed first s (some a) ∧
        (next s a).Timed rest s' r := by
  constructor
  · intro h
    induction p generalizing moments with
    | done s a => exact .inr ⟨[], moments, s, a, rfl, .done s a, h⟩
    | clock k ih =>
      obtain ⟨now, rest, hm, h⟩ := timed_clock_iff.1 h
      rw [hm]
      rcases ih now h with ⟨h, hr⟩ | ⟨first, rest, s, a, hm, hp, h⟩
      · exact .inl ⟨.clock now h, hr⟩
      · rw [hm]
        exact .inr ⟨_, rest, s, a, rfl, .clock now hp, h⟩
    | wait s query k ih =>
      rcases timed_wait_iff.1 h with ⟨hm, hs, hr⟩ | ⟨answer, rest, hm, h⟩
      · rw [hm, hs]
        exact .inl ⟨.givenUp s query k, hr⟩
      · rw [hm]
        rcases ih answer h with ⟨h, hr⟩ | ⟨first, rest, s, a, hm, hp, h⟩
        · exact .inl ⟨.answered answer h, hr⟩
        · rw [hm]
          exact .inr ⟨_, rest, s, a, rfl, .answered answer hp, h⟩
  · intro h
    rcases h with ⟨h, hr⟩ | ⟨first, rest, s, a, hm, hp, h⟩
    · rw [hr]
      clear hr
      generalize hr : (none : Option α) = r' at h
      induction h with
      | done s a => cases hr
      | clock now _ ih => exact .clock now (ih hr)
      | givenUp s query k => exact .givenUp s query _
      | answered answer _ ih => exact .answered answer (ih hr)
    · rw [hm]
      clear hm
      generalize hr : some a = r' at hp
      induction hp with
      | done s b =>
        cases hr
        exact h
      | clock now _ ih => exact .clock now (ih h hr)
      | givenUp s query k => cases hr
      | answered answer _ ih => exact .answered answer (ih h hr)

theorem trace_bind_iff {next : σ → α → Process σ β} {r : Option β} :
    (p.bind next).Trace exchanges s' r ↔
      (p.Trace exchanges s' none ∧ r = none) ∨
      ∃ first rest s a, exchanges = first ++ rest ∧ p.Trace first s (some a) ∧
        (next s a).Trace rest s' r := by
  constructor
  · intro h
    obtain ⟨moments, h, he⟩ := trace_iff_timed.1 h
    rw [← he]
    rcases timed_bind_iff.1 h with ⟨h, hr⟩ | ⟨first, rest, s, a, hm, hp, h⟩
    · exact .inl ⟨h.trace, hr⟩
    · exact .inr ⟨_, _, s, a, by rw [hm, Moment.exchanges_append], hp.trace, h.trace⟩
  · intro h
    rcases h with ⟨h, hr⟩ | ⟨first, rest, s, a, he, hp, h⟩
    · obtain ⟨moments, h, he⟩ := trace_iff_timed.1 h
      exact trace_iff_timed.2 ⟨moments, timed_bind_iff.2 (.inl ⟨h, hr⟩), he⟩
    · obtain ⟨moments, hp, hfirst⟩ := trace_iff_timed.1 hp
      obtain ⟨moments', h, hrest⟩ := trace_iff_timed.1 h
      refine trace_iff_timed.2 ⟨_,
        timed_bind_iff.2 (.inr ⟨moments, moments', s, a, rfl, hp, h⟩), ?_⟩
      rw [Moment.exchanges_append, hfirst, hrest, he]

theorem timed_mapState_iff {f : σ → τ} {t : τ} :
    (p.mapState f).Timed moments t r ↔ ∃ s, p.Timed moments s r ∧ t = f s := by
  constructor
  · intro h
    induction p generalizing moments with
    | done s a =>
      obtain ⟨hm, ht, hr⟩ := timed_done_iff.1 h
      rw [hm, hr]
      exact ⟨s, .done s a, ht⟩
    | clock k ih =>
      obtain ⟨now, rest, hm, h⟩ := timed_clock_iff.1 h
      obtain ⟨s, h, ht⟩ := ih now h
      rw [hm]
      exact ⟨s, .clock now h, ht⟩
    | wait s query k ih =>
      rcases timed_wait_iff.1 h with ⟨hm, ht, hr⟩ | ⟨answer, rest, hm, h⟩
      · rw [hm, hr]
        exact ⟨s, .givenUp s query k, ht⟩
      · obtain ⟨s, h, ht⟩ := ih answer h
        rw [hm]
        exact ⟨s, .answered answer h, ht⟩
  · intro h
    obtain ⟨s, h, ht⟩ := h
    rw [ht]
    clear ht
    induction h with
    | done s a => exact .done (f s) a
    | clock now _ ih => exact .clock now ih
    | givenUp s query k => exact .givenUp (f s) query _
    | answered answer _ ih => exact .answered answer ih

theorem trace_mapState_iff {f : σ → τ} {t : τ} :
    (p.mapState f).Trace exchanges t r ↔ ∃ s, p.Trace exchanges s r ∧ t = f s := by
  constructor
  · intro h
    obtain ⟨moments, h, he⟩ := trace_iff_timed.1 h
    obtain ⟨s, h, ht⟩ := timed_mapState_iff.1 h
    exact ⟨s, he ▸ h.trace, ht⟩
  · intro h
    obtain ⟨s, h, ht⟩ := h
    obtain ⟨moments, h, he⟩ := trace_iff_timed.1 h
    exact trace_iff_timed.2 ⟨moments, timed_mapState_iff.2 ⟨s, h, ht⟩, he⟩

def Answers {ω : Type} (respond : (query : Query) → StateM ω (Nat × query.Answer)) (e : Exchange) :
    Prop :=
  ∀ answer, e.answer = some answer → ∃ w, ((respond e.query).run w).1.2 = answer

/-- Whatever answers, and whenever it is given up, a run goes one of the ways. -/
theorem exists_timed_of_run {ω : Type} (respond : (query : Query) → StateM ω (Nat × query.Answer))
    (deadline : Option Nat) (p : Process σ α) (now : Nat) (w : ω) :
    ∃ moments, p.Timed moments ((p.run respond deadline now).run w).1.2.1
        ((p.run respond deadline now).run w).1.2.2 ∧
      ∀ e ∈ Moment.exchanges moments, Answers respond e := by
  induction p generalizing now w with
  | done s a => exact ⟨[], .done s a, by simp⟩
  | clock k ih =>
    obtain ⟨moments, h, hanswers⟩ := ih now now w
    exact ⟨_, .clock now h, hanswers⟩
  | wait s query k ih =>
    have hanswered (w : ω) {answer : query.Answer} (h : ((respond query).run w).1.2 = answer) :
        Answers respond ⟨query, some answer⟩ := by
      intro answer' hanswer
      cases hanswer
      exact ⟨w, h⟩
    cases deadline with
    | none =>
      obtain ⟨moments, h, hanswers⟩ := ih ((respond query).run w).1.2
        (now + ((respond query).run w).1.1) ((respond query).run w).2
      exact ⟨_, .answered _ h, List.forall_mem_cons.2 ⟨hanswered w rfl, hanswers⟩⟩
    | some time =>
      rcases hanswer : (respond query).run w with ⟨⟨delay, answer⟩, w'⟩
      have hrun : (run respond (some time) (wait s query k) now).run w =
          (if time < now + delay then pure (time, s, none)
            else run respond (some time) (k answer) (now + delay)).run w' := by
        rw [run, StateT.run_bind, hanswer]
        rfl
      rw [hrun]
      by_cases hlate : time < now + delay
      · rw [if_pos hlate]
        have hnone : Answers respond ⟨query, none⟩ := nofun
        exact ⟨_, .givenUp s query k, by simpa using hnone⟩
      · rw [if_neg hlate]
        obtain ⟨moments, h, hanswers⟩ := ih answer (now + delay) w'
        exact ⟨_, .answered answer h,
          List.forall_mem_cons.2 ⟨hanswered w (by rw [hanswer]), hanswers⟩⟩

theorem exists_trace_of_run {ω : Type} (respond : (query : Query) → StateM ω (Nat × query.Answer))
    (deadline : Option Nat) (p : Process σ α) (now : Nat) (w : ω) :
    ∃ exchanges, p.Trace exchanges ((p.run respond deadline now).run w).1.2.1
      ((p.run respond deadline now).run w).1.2.2 := by
  obtain ⟨moments, h, -⟩ := exists_timed_of_run respond deadline p now w
  exact ⟨_, h.trace⟩

end Process

namespace Attempt

variable {σ τ α β : Type} {exchanges : List Exchange} {moments : List Moment} {s s' : σ}

theorem bind_apply (act : Attempt σ α) (next : α → Attempt σ β) (s : σ) :
    (act >>= next) s = (act s).bind fun s r ↦ match r with
      | .ok a => next a s
      | .error e => .done s (.error e) := by
  change Process.bind _ (act s) = _
  congr 1
  funext s r
  cases r <;> rfl

theorem discard_bind (act : Attempt σ α) (next : PUnit → Attempt σ β) (s : σ) :
    (discard act >>= next) s = (act >>= fun _ ↦ next ()) s := by
  change Process.bind _ (Process.bind _ (act s)) = Process.bind _ (act s)
  rw [Process.bind_bind]
  congr 1
  funext s r
  cases r <;> rfl

theorem get_bind (next : σ → Attempt σ β) (s : σ) : (get >>= next) s = next s s := rfl

theorem set_bind (t : σ) (next : PUnit → Attempt σ β) (s : σ) : (set t >>= next) s = next () t :=
  rfl

theorem modify_bind (f : σ → σ) (next : PUnit → Attempt σ β) (s : σ) :
    (modify f >>= next) s = next () (f s) := rfl

theorem now_bind (next : Nat → Attempt σ β) (s : σ) :
    (now >>= next) s = .clock fun time ↦ next time s := rfl

theorem ask_bind (query : Query) (next : query.Answer → Attempt σ β) (s : σ) :
    (ask query >>= next) s = .wait s query fun answer ↦ next answer s := rfl

theorem ofExcept_bind_of_ok {r : Except ClientError α} {a : α} (next : α → Attempt σ β) (s : σ)
    (h : r = .ok a) : (ofExcept r >>= next) s = next a s := by
  rw [h]
  rfl

theorem ofExcept_bind_of_error {r : Except ClientError α} {e : ClientError} (next : α → Attempt σ β)
    (s : σ) (h : r = .error e) : (ofExcept r >>= next) s = .done s (.error e) := by
  rw [h]
  rfl

theorem trace_bind_iff {act : Attempt σ α} {next : α → Attempt σ β}
    {r : Option (Except ClientError β)} :
    ((act >>= next) s).Trace exchanges s' r ↔
      ((act s).Trace exchanges s' none ∧ r = none) ∨
      (∃ e, (act s).Trace exchanges s' (some (.error e)) ∧ r = some (.error e)) ∨
      ∃ first rest t a, exchanges = first ++ rest ∧ (act s).Trace first t (some (.ok a)) ∧
        (next a t).Trace rest s' r := by
  rw [bind_apply, Process.trace_bind_iff]
  refine or_congr_right ?_
  constructor
  · intro h
    obtain ⟨first, rest, t, result, he, hact, hnext⟩ := h
    cases result with
    | ok a => exact .inr ⟨first, rest, t, a, he, hact, hnext⟩
    | error e =>
      obtain ⟨hrest, ht, hr⟩ := Process.trace_done_iff.1 hnext
      rw [he, hrest, ht, List.append_nil]
      exact .inl ⟨e, hact, hr⟩
  · intro h
    rcases h with ⟨e, hact, hr⟩ | ⟨first, rest, t, a, he, hact, hnext⟩
    · exact ⟨exchanges, [], s', .error e, (List.append_nil _).symm, hact,
        Process.trace_done_iff.2 ⟨rfl, rfl, hr⟩⟩
    · exact ⟨first, rest, t, .ok a, he, hact, hnext⟩

theorem trace_map_iff {act : Attempt σ α} {f : α → β} {r : Option (Except ClientError β)} :
    ((f <$> act) s).Trace exchanges s' r ↔
      ∃ result, (act s).Trace exchanges s' result ∧ r = result.map (Except.map f) := by
  have hmap : (f <$> act) s = (act s).bind fun t result ↦ .done t (result.map f) := by
    change Process.bind _ (act s) = _
    congr 1
    funext t result
    cases result <;> rfl
  rw [hmap, Process.trace_bind_iff]
  constructor
  · intro h
    rcases h with ⟨hact, hr⟩ | ⟨first, rest, t, result, he, hact, hdone⟩
    · exact ⟨none, hact, hr⟩
    · obtain ⟨hrest, ht, hr⟩ := Process.trace_done_iff.1 hdone
      rw [he, hrest, ht, List.append_nil]
      exact ⟨some result, hact, hr⟩
  · intro h
    obtain ⟨result, hact, hr⟩ := h
    cases result with
    | none => exact .inl ⟨hact, hr⟩
    | some result =>
      exact .inr ⟨exchanges, [], s', result, (List.append_nil _).symm, hact,
        Process.trace_done_iff.2 ⟨rfl, rfl, hr⟩⟩

theorem trace_bind_of_error {act : Attempt σ α} (next : α → Attempt σ β) {e : ClientError}
    (h : (act s).Trace exchanges s' (some (.error e))) :
    ((act >>= next) s).Trace exchanges s' (some (.error e)) :=
  trace_bind_iff.2 (.inr (.inl ⟨e, h, rfl⟩))

theorem trace_bind_cases {act : Attempt σ α} {next : α → Attempt σ β}
    {r : Option (Except ClientError β)} (h : ((act >>= next) s).Trace exchanges s' r) :
    (∃ stop : Option ClientError, (act s).Trace exchanges s' (stop.map .error) ∧
      r = stop.map .error) ∨
      ∃ first rest t a, exchanges = first ++ rest ∧ (act s).Trace first t (some (.ok a)) ∧
        (next a t).Trace rest s' r := by
  rcases trace_bind_iff.1 h with ⟨h, hr⟩ | ⟨e, h, hr⟩ | h
  · exact .inl ⟨none, h, hr⟩
  · exact .inl ⟨some e, h, hr⟩
  · exact .inr h

theorem timed_bind_cases {act : Attempt σ α} {next : α → Attempt σ β}
    {r : Option (Except ClientError β)} (h : ((act >>= next) s).Timed moments s' r) :
    (∃ stop : Option ClientError, (act s).Timed moments s' (stop.map .error) ∧
      r = stop.map .error) ∨
      ∃ first rest t a, moments = first ++ rest ∧ (act s).Timed first t (some (.ok a)) ∧
        (next a t).Timed rest s' r := by
  rw [bind_apply] at h
  rcases Process.timed_bind_iff.1 h with ⟨h, hr⟩ | ⟨first, rest, t, result, hm, hact, hnext⟩
  · exact .inl ⟨none, h, hr⟩
  · cases result with
    | ok a => exact .inr ⟨first, rest, t, a, hm, hact, hnext⟩
    | error e =>
      obtain ⟨hrest, ht, hr⟩ := Process.timed_done_iff.1 hnext
      rw [hm, hrest, ht, List.append_nil]
      exact .inl ⟨some e, hact, hr⟩

theorem stop_ne_ok (stop : Option ClientError) (a : α) :
    stop.map (Except.error (α := α)) ≠ some (.ok a) := by
  cases stop <;> exact nofun

theorem stop_injective {stop stop' : Option ClientError}
    (h : stop.map (Except.error (α := α)) = stop'.map .error) : stop = stop' := by
  cases stop <;> cases stop' <;> cases h
  all_goals rfl

theorem stop_eq_error {stop : Option ClientError} {e : ClientError}
    (h : stop.map (Except.error (α := α)) = some (.error e)) :
    stop.map (Except.error (α := β)) = some (.error e) := by
  cases stop <;> cases h
  rfl

theorem timed_onRight_iff {act : Attempt τ α} {t : τ} {st : σ × τ}
    {r : Option (Except ClientError α)} :
    (onRight act (s, t)).Timed moments st r ↔ ∃ t', (act t).Timed moments t' r ∧ st = (s, t') :=
  Process.timed_mapState_iff

theorem timed_onLeft_iff {act : Attempt σ α} {t : τ} {st : σ × τ}
    {r : Option (Except ClientError α)} :
    (onLeft act (s, t)).Timed moments st r ↔ ∃ s', (act s).Timed moments s' r ∧ st = (s', t) :=
  Process.timed_mapState_iff

theorem timed_withOwn_iff {act : Attempt (σ × τ) α} {own : σ} {t t' : τ}
    {r : Option (Except ClientError α)} :
    (withOwn own act t).Timed moments t' r ↔
      ∃ st : σ × τ, (act (own, t)).Timed moments st r ∧ t' = st.2 :=
  Process.timed_mapState_iff

theorem trace_ofExcept_iff {x : Except ClientError α} {r : Option (Except ClientError α)} :
    (ofExcept x s).Trace exchanges s' r ↔ exchanges = [] ∧ s' = s ∧ r = some x :=
  Process.trace_done_iff

end Attempt

end ValidatorClient
