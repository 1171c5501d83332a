import Mathlib.Data.List.Induction
import ValidatorClient.Proofs.BlockhashCache.Shared

namespace ValidatorClient.BlockhashCache

open Attempt Process

variable {κ : Type} {c c' : BlockhashCache} {call : Call} {moments : List Moment}
  {left : BlockhashCache} {result : Option (Except ClientError (Option BlockReference))}
  {reference : BlockReference} {t now ttl : Nat} {log : List (Served κ)} {e : Served κ}

inductive Does (c : BlockhashCache) : Call → List Moment → BlockhashCache →
    Option (Except ClientError (Option BlockReference)) → Prop
  | get {now : Nat} {moments : List Moment} {left : BlockhashCache}
      {r : Option (Except ClientError BlockReference)} (h : c.Fetches now moments left r) :
      Does c .get moments left (r.map (Except.map some))
  | invalidate : Does c .invalidate [] c.invalidate (some (.ok none))
  | observe (height : UInt64) : Does c (.observe height) [] (c.observe height) (some (.ok none))
  | peek : Does c .peek [] c (some (.ok c.peek))

theorem does_of_timed (h : (call.act c).Timed moments left result) :
    Does c call moments left result := by
  cases call with
  | get =>
    rcases timed_bind_cases h with ⟨stop, hfetch, hr⟩ | ⟨first, rest, t, reference, hm, hfetch, h⟩
    · obtain ⟨now, hfetches⟩ := timed_fetch hfetch
      have hdoes := Does.get hfetches
      rw [hr]
      cases stop <;> exact hdoes
    · obtain ⟨hrest, hleft, hr⟩ := timed_done_iff.1 h
      obtain ⟨now, hfetches⟩ := timed_fetch hfetch
      rw [hm, hrest, hleft, hr, List.append_nil]
      exact Does.get hfetches
  | invalidate =>
    obtain ⟨hm, hleft, hr⟩ := timed_done_iff.1 h
    rw [hm, hleft, hr]
    exact .invalidate
  | observe height =>
    obtain ⟨hm, hleft, hr⟩ := timed_done_iff.1 h
    rw [hm, hleft, hr]
    exact .observe height
  | peek =>
    obtain ⟨hm, hleft, hr⟩ := timed_done_iff.1 h
    rw [hm, hleft, hr]
    exact .peek

namespace Served

/-- The call got a reference from the node, which came at this time. -/
def Stores (e : Served κ) (reference : BlockReference) (t : Nat) : Prop :=
  ∃ now, e.call = .get ∧
    e.moments = [.clock now, .exchange ⟨.blockReference, some (Except.ok reference)⟩, .clock t]

/-- The call does not leave this reference in the cache, whatever came of it. -/
def Drops (e : Served κ) (reference : BlockReference) : Prop :=
  match e.call with
  | .get => Moment.exchanges e.moments ≠ []
  | .invalidate => True
  | .observe height => reference.lastValidHeight < height
  | .peek => False

end Served

/-- One of the calls stored the reference at this time, and none of those after it dropped it. -/
def Keeps (log : List (Served κ)) (reference : BlockReference) (t : Nat) : Prop :=
  ∃ earlier e later, log = earlier ++ e :: later ∧ e.Stores reference t ∧
    ∀ d ∈ later, ¬ d.Drops reference

def Live (ttl : Nat) (log : List (Served κ)) (now : Nat) (reference : BlockReference) : Prop :=
  ∃ t, Keeps log reference t ∧ now < t + ttl

theorem not_keeps_nil : ¬ Keeps ([] : List (Served κ)) reference t := by
  intro h
  obtain ⟨earlier, e, later, hlog, -⟩ := h
  simp at hlog

theorem keeps_concat_iff :
    Keeps (log ++ [e]) reference t ↔
      e.Stores reference t ∨ Keeps log reference t ∧ ¬ e.Drops reference := by
  constructor
  · intro h
    obtain ⟨earlier, d, later, hlog, hstores, hkept⟩ := h
    rcases List.eq_nil_or_concat later with hlater | ⟨rest, last, hlater⟩
    · rw [hlater] at hlog
      rw [(List.append_singleton_inj.1 hlog).2]
      exact .inl hstores
    · rw [hlater, List.concat_eq_append] at hlog hkept
      rw [← List.cons_append, ← List.append_assoc] at hlog
      obtain ⟨hinit, hlast⟩ := List.append_singleton_inj.1 hlog
      rw [hlast]
      exact .inr
        ⟨⟨earlier, d, rest, hinit, hstores, fun x hx ↦ hkept x (List.mem_append_left _ hx)⟩,
        hkept last (by simp)⟩
  · intro h
    rcases h with hstores | ⟨⟨earlier, d, later, hlog, hstores, hkept⟩, hdrops⟩
    · exact ⟨log, e, [], rfl, hstores, List.forall_mem_nil _⟩
    · refine ⟨earlier, d, later ++ [e],
        by rw [hlog, List.append_assoc, List.cons_append], hstores, ?_⟩
      intro x hx
      rcases List.mem_append.1 hx with hx | hx
      · exact hkept x hx
      · rw [List.mem_singleton.1 hx]
        exact hdrops

theorem mem_times_of_keeps (h : Keeps log reference t) : t ∈ times log := by
  obtain ⟨earlier, e, later, hlog, ⟨now, -, hmoments⟩, -⟩ := h
  simp [hlog, hmoments]

theorem slot_observe_iff {height : UInt64} :
    (c.observe height).slot = some ⟨reference, t⟩ ↔
      c.slot = some ⟨reference, t⟩ ∧ ¬ reference.lastValidHeight < height := by
  unfold observe
  cases hslot : c.slot with
  | none => simp [hslot]
  | some cached =>
    dsimp only
    by_cases hpast : cached.reference.lastValidHeight < height
    · rw [if_pos hpast]
      constructor
      · exact nofun
      · intro h
        cases h.1
        exact absurd hpast h.2
    · rw [if_neg hpast, hslot]
      constructor
      · intro h
        cases h
        exact ⟨rfl, hpast⟩
      · exact And.left

/-- What is in the cache after a call was stored by it, or was there before and is not dropped. -/
theorem slot_left_iff (h : Does c e.call e.moments e.left e.result) :
    e.left.slot = some ⟨reference, t⟩ ↔
      e.Stores reference t ∨ c.slot = some ⟨reference, t⟩ ∧ ¬ e.Drops reference := by
  obtain ⟨caller, call, moments, left, result⟩ := e
  dsimp only at h ⊢
  cases h with
  | get h =>
    cases h with
    | hit => simp [Served.Stores, Served.Drops]
    | givenUp | failed => simp [Served.Stores, Served.Drops, BlockhashCache.invalidate]
    | fetched _ reference' later =>
      constructor
      · intro h
        cases h
        exact .inl ⟨_, rfl, rfl⟩
      · intro h
        rcases h with ⟨_, -, hmoments⟩ | ⟨-, hkept⟩
        · injection hmoments with _ hmoments
          injection hmoments with hexchange hmoments
          cases hexchange
          cases hmoments
          rfl
        · exact absurd (List.cons_ne_nil _ _) hkept
  | invalidate => simp [Served.Stores, Served.Drops, BlockhashCache.invalidate]
  | observe height => simp [Served.Stores, Served.Drops, slot_observe_iff]
  | peek => simp [Served.Stores, Served.Drops]

theorem ttl_left (h : Does c call moments left result) : left.ttl = c.ttl := by
  cases h with
  | get h => cases h <;> rfl
  | invalidate => rfl
  | observe height =>
    unfold BlockhashCache.observe
    split
    · split <;> rfl
    · rfl
  | peek => rfl

theorem slot_eq_some_iff (h : Follows (.empty ttl) log c) :
    c.ttl = ttl ∧ ∀ reference t, c.slot = some ⟨reference, t⟩ ↔ Keeps log reference t := by
  -- From the last call back, as it decides what is kept of all that was there before.
  induction log using List.reverseRecOn generalizing c with
  | nil =>
    have hc : c = .empty ttl := h
    rw [hc]
    exact ⟨rfl, fun reference t ↦ ⟨nofun, fun hkeeps ↦ absurd hkeeps not_keeps_nil⟩⟩
  | append_singleton log e ih =>
    obtain ⟨between, hlog, hacts, hc⟩ := follows_concat_iff.1 h
    obtain ⟨httl, hslot⟩ := ih hlog
    have hdoes := does_of_timed hacts
    rw [hc]
    refine ⟨(ttl_left hdoes).trans httl, fun reference t ↦ ?_⟩
    rw [slot_left_iff hdoes, keeps_concat_iff, hslot]

theorem live?_eq_some_iff :
    c.live? now = some reference ↔ ∃ t, c.slot = some ⟨reference, t⟩ ∧ now - t < c.ttl := by
  unfold live?
  cases hslot : c.slot with
  | none => simp
  | some cached =>
    obtain ⟨reference', t'⟩ := cached
    dsimp only
    by_cases hfresh : now - t' < c.ttl
    · rw [if_pos hfresh]
      constructor
      · intro h
        cases h
        exact ⟨t', rfl, hfresh⟩
      · intro h
        obtain ⟨_, hsome, -⟩ := h
        cases hsome
        rfl
    · rw [if_neg hfresh]
      constructor
      · exact nofun
      · intro h
        obtain ⟨_, hsome, hfresh'⟩ := h
        cases hsome
        exact absurd hfresh' hfresh

/-- As the clock never goes back, the age of what is in the cache is the time since it came. -/
theorem live?_iff_live (h : Follows (.empty ttl) log c) (hle : ∀ t ∈ times log, t ≤ now) :
    c.live? now = some reference ↔ Live ttl log now reference := by
  obtain ⟨httl, hslot⟩ := slot_eq_some_iff h
  rw [live?_eq_some_iff, httl]
  refine exists_congr fun t ↦ ?_
  rw [hslot]
  refine and_congr_right fun hkeeps ↦ ?_
  have ht := hle t (mem_times_of_keeps hkeeps)
  omega

/-- What comes of getting a reference at this time after these calls. -/
structure Served.Gets (ttl : Nat) (before : List (Served κ)) (now : Nat) (e : Served κ) : Prop where
  hits : ∀ reference, Live ttl before now reference ↔
    Moment.exchanges e.moments = [] ∧ e.result = some (.ok (some reference))
  fetches : (∀ reference, ¬ Live ttl before now reference) →
    ∃ answer : Option (Except RpcError BlockReference),
      Moment.exchanges e.moments = [⟨.blockReference, answer⟩] ∧
      e.result = answer.map (fun a ↦ (a.map some).mapError .rpc) ∧
      e.left.peek = answer.bind Except.toOption

section Log

variable {before rest after : List (Served κ)} {first : Served κ}

theorem gets_of_follows (h : Follows (.empty ttl) (before ++ e :: after) c)
    (hascends : (times (before ++ e :: after)).Pairwise (· ≤ ·)) (hcall : e.call = .get) :
    ∃ now rest, e.moments = .clock now :: rest ∧ e.Gets ttl before now := by
  obtain ⟨between, hbefore, hacts, -⟩ := follows_append_iff.1 h
  have hdoes := does_of_timed hacts
  obtain ⟨caller, call, moments, left, result⟩ := e
  dsimp only at hcall hdoes ⊢
  subst hcall
  cases hdoes with
  | @get now _ _ _ hfetch =>
    obtain ⟨rest, hmoments⟩ := hfetch.exists_cons
    refine ⟨now, rest, hmoments, ?_⟩
    have hle : ∀ t ∈ times before, t ≤ now := by
      intro t ht
      rw [times_append, times_cons, hmoments] at hascends
      exact (List.pairwise_append.1 hascends).2.2 t ht now (by simp)
    have hlive (reference : BlockReference) :
        between.live? now = some reference ↔ Live ttl before now reference :=
      live?_iff_live hbefore hle
    cases hfetch with
    | hit hhit =>
      refine ⟨fun reference ↦ ?_, fun hnone ↦ absurd ((hlive _).1 hhit) (hnone _)⟩
      rw [← hlive, hhit]
      simp [Except.map]
    | givenUp hmiss =>
      refine ⟨fun reference ↦ ?_, fun _ ↦ ⟨none, rfl, rfl, rfl⟩⟩
      rw [← hlive, hmiss]
      simp
    | failed hmiss error =>
      refine ⟨fun reference ↦ ?_, fun _ ↦ ⟨some (.error error), rfl, rfl, rfl⟩⟩
      rw [← hlive, hmiss]
      simp
    | fetched hmiss got later =>
      refine ⟨fun reference ↦ ?_, fun _ ↦ ⟨some (.ok got), rfl, rfl, rfl⟩⟩
      rw [← hlive, hmiss]
      simp

theorem hits_of_keeps (hkeeps : Keeps before reference t)
    (h : Follows (.empty ttl) (before ++ rest) c)
    (hascends : (times (before ++ rest)).Pairwise (· ≤ ·)) (hcalls : ∀ e ∈ rest, e.call = .get)
    (hfresh : ∀ e ∈ rest, ∀ now ∈ Moment.readings e.moments, now < t + ttl) :
    ∀ e ∈ rest, Moment.exchanges e.moments = [] ∧ e.result = some (.ok (some reference)) := by
  -- Each call finds what was kept, and as it asks nothing it keeps it for the next.
  induction rest generalizing before with
  | nil => exact List.forall_mem_nil _
  | cons e rest ih =>
    obtain ⟨now, after, hmoments, hgets⟩ := gets_of_follows h hascends (hcalls e List.mem_cons_self)
    have hnow : now < t + ttl := hfresh e List.mem_cons_self now (by simp [hmoments])
    have hhit := (hgets.hits reference).1 ⟨t, hkeeps, hnow⟩
    have hdrops : ¬ e.Drops reference := by
      rw [Served.Drops, hcalls e List.mem_cons_self]
      exact not_not_intro hhit.1
    have hassoc : before ++ e :: rest = before ++ [e] ++ rest := by simp
    rw [hassoc] at h hascends
    exact List.forall_mem_cons.2 ⟨hhit, ih (keeps_concat_iff.2 (.inr ⟨hkeeps, hdrops⟩)) h hascends
      (fun d hd ↦ hcalls d (List.mem_cons_of_mem e hd)) fun d hd ↦
        hfresh d (List.mem_cons_of_mem e hd)⟩

theorem stores_of_empty (h : Follows (.empty ttl) (before ++ [e]) c)
    (hascends : (times (before ++ [e])).Pairwise (· ≤ ·)) (hcall : e.call = .get)
    (hempty : ∀ reference t, ¬ Keeps before reference t) {got : Option BlockReference}
    (hresult : e.result = some (.ok got)) :
    ∃ reference t, e.Stores reference t ∧ e.result = some (.ok (some reference)) ∧
      Moment.exchanges e.moments = [⟨.blockReference, some (Except.ok reference)⟩] := by
  obtain ⟨now, rest, -, hgets⟩ := gets_of_follows h hascends hcall
  obtain ⟨answer, hexchanges, hresult', hpeek⟩ :=
    hgets.fetches fun reference ⟨t, hkeeps, _⟩ ↦ hempty reference t hkeeps
  rcases answer with _ | _ | found
  · cases hresult'.symm.trans hresult
  · cases hresult'.symm.trans hresult
  · obtain ⟨⟨reference, t⟩, hslot, hreference⟩ := Option.map_eq_some_iff.1 hpeek
    cases hreference
    obtain ⟨between, -, -, hc⟩ := follows_concat_iff.1 h
    rw [← hc] at hslot
    rcases keeps_concat_iff.1 (((slot_eq_some_iff h).2 reference t).1 hslot) with
      hstores | ⟨hkeeps, -⟩
    · exact ⟨reference, t, hstores, hresult', hexchanges⟩
    · exact absurd hkeeps (hempty reference t)

end Log

/-- Whatever the callers do, at most one of them waits for the node. Getting a reference asks
nothing if and only if one still counts, and gives that one. Otherwise it asks once, and what comes
is its result and what is left in the cache. So of any number of calls on an empty cache only the
first asks, while what it got counts. -/
theorem Shared.Run.served [DecidableEq κ] {s : Shared κ} (h : Run ttl s) :
    (∀ caller other, (s.status caller).Asks → (s.status other).Asks → caller = other) ∧
    (∀ before e after, s.log = before ++ e :: after → e.call = .get →
      (∃ now rest, e.moments = .clock now :: rest ∧ e.Gets ttl before now) ∧
      (after = [] → s.cache = e.left)) ∧
    ∀ before first rest after reference, s.log = before ++ (first :: rest) ++ after →
      (∀ e ∈ first :: rest, e.call = .get) → (∀ reference t, ¬ Keeps before reference t) →
      first.result = some (.ok reference) → ∃ reference t, first.Stores reference t ∧
        ((∀ e ∈ rest, ∀ now ∈ Moment.readings e.moments, now < t + ttl) →
          (first :: rest).flatMap (fun e ↦ Moment.exchanges e.moments) =
            [⟨.blockReference, some (Except.ok reference)⟩] ∧
          ∀ e ∈ first :: rest, e.result = some (.ok (some reference))) := by
  have hsequential := h.sequential
  have hfollows := hsequential.follows
  have hascends := (List.pairwise_append.1 hsequential.ascends).1
  refine ⟨fun a b ha hb ↦ hsequential.exclusive a b ha.holds hb.holds, ?_, ?_⟩
  · intro before e after hlog hcall
    rw [hlog] at hfollows hascends
    refine ⟨gets_of_follows hfollows hascends hcall, fun hafter ↦ ?_⟩
    rw [hafter] at hfollows
    obtain ⟨_, -, -, hcache⟩ := follows_concat_iff.1 hfollows
    exact hcache
  · intro before first rest after got hlog hcalls hempty hresult
    have hassoc : before ++ first :: rest = before ++ [first] ++ rest := by simp
    rw [hlog, hassoc] at hfollows hascends
    obtain ⟨_, hfollows, -⟩ := follows_append_iff.1 hfollows
    rw [times_append] at hascends
    have hascends := (List.pairwise_append.1 hascends).1
    obtain ⟨between, hfirst, -⟩ := follows_append_iff.1 hfollows
    have hascends' := hascends
    rw [times_append] at hascends'
    obtain ⟨reference, t, hstores, hresult', hexchanges⟩ := stores_of_empty hfirst
      (List.pairwise_append.1 hascends').1 (hcalls first List.mem_cons_self) hempty hresult
    refine ⟨reference, t, hstores, fun hfresh ↦ ?_⟩
    have hhits := hits_of_keeps (keeps_concat_iff.2 (.inl hstores)) hfollows hascends
      (fun e he ↦ hcalls e (List.mem_cons_of_mem first he)) hfresh
    refine ⟨?_, List.forall_mem_cons.2 ⟨hresult', fun e he ↦ (hhits e he).2⟩⟩
    rw [List.flatMap_cons, hexchanges, List.flatMap_eq_nil_iff.2 fun e he ↦ (hhits e he).1,
      List.append_nil]

theorem Shared.Run.served_overlapping :
    let reference : BlockReference := ⟨.replicate 32 3, 42⟩
    ∃ s : Shared Bool, Run 10 s ∧ s.log.map (·.caller) = [false, true] ∧
      s.log.flatMap (fun e ↦ Moment.exchanges e.moments) =
        [⟨.blockReference, some (Except.ok reference)⟩] ∧
      ∀ e ∈ s.log, e.result = some (.ok (some reference)) := by
  intro reference
  have hcalled :
      Run 10 (((Shared.start 10).become false (.waiting .get)).become true (.waiting .get)) :=
    .step (.step .start (.call .get rfl)) (.call .get rfl)
  have hlocked :=
    hcalled.step (@Step.lock _ _ _ false .get rfl fun other ↦ by cases other <;> exact id)
  have hasked := hlocked.step (@Step.clock _ _ _ false _ _ _ rfl)
  have hpassed := hasked.step (@Step.pass _ _ _ 7 (Nat.zero_le 7))
  have hanswered :=
    hpassed.step (@Step.answer _ _ _ false _ _ _ .blockReference _ rfl (Except.ok reference))
  have hstored := hanswered.step (@Step.clock _ _ _ false _ _ _ rfl)
  have hfirst := hstored.step (@Step.finish _ _ _ false _ _ _ _ rfl)
  have hlocked' :=
    hfirst.step (@Step.lock _ _ _ true .get rfl fun other ↦ by cases other <;> exact id)
  have hhit := hlocked'.step (@Step.clock _ _ _ true _ _ _ rfl)
  have hlast := hhit.step (@Step.finish _ _ _ true _ _ _ _ rfl)
  obtain ⟨found, t, ⟨_, -, hmoments⟩, hall⟩ :=
    (Shared.Run.served hlast).2.2 [] _ [_] [] _ rfl (by simp) (fun _ _ ↦ not_keeps_nil) rfl
  cases hmoments
  have hfresh : ∀ now ∈ [7], now < 7 + 10 := by decide
  exact ⟨_, hlast, rfl, hall (List.forall_mem_singleton.2 hfresh)⟩

end ValidatorClient.BlockhashCache
