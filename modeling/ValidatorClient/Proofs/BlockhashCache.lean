import ValidatorClient.BlockhashCache
import ValidatorClient.Proofs.Exchange

namespace ValidatorClient.BlockhashCache

open Attempt Process

variable {cache cache' : BlockhashCache} {moments : List Moment}
  {r : Option (Except ClientError BlockReference)}

/-- Everything that a fetch can do, from the time that the clock shows at its start. -/
inductive Fetches (cache : BlockhashCache) (now : Nat) :
    List Moment → BlockhashCache → Option (Except ClientError BlockReference) → Prop
  | hit {reference : BlockReference} (h : cache.live? now = some reference) :
      Fetches cache now [.clock now] cache (some (.ok reference))
  | givenUp (h : cache.live? now = none) :
      Fetches cache now [.clock now, .exchange ⟨.blockReference, none⟩] cache.invalidate none
  | failed (h : cache.live? now = none) (e : RpcError) :
      Fetches cache now [.clock now, .exchange ⟨.blockReference, some (Except.error e)⟩]
        cache.invalidate (some (.error (.rpc e)))
  | fetched (h : cache.live? now = none) (reference : BlockReference) (later : Nat) :
      Fetches cache now
        [.clock now, .exchange ⟨.blockReference, some (Except.ok reference)⟩, .clock later]
        { cache with slot := some ⟨reference, later⟩ } (some (.ok reference))

theorem timed_fetch (h : (fetch cache).Timed moments cache' r) :
    ∃ now, Fetches cache now moments cache' r := by
  rw [fetch, get_bind, now_bind] at h
  obtain ⟨now, rest, hm, h⟩ := timed_clock_iff.1 h
  refine ⟨now, ?_⟩
  cases hlive : cache.live? now with
  | some reference =>
    rw [hlive] at h
    obtain ⟨hrest, hc, hr⟩ := timed_done_iff.1 h
    subst hm hrest hc hr
    exact .hit hlive
  | none =>
    rw [hlive] at h
    dsimp only at h
    rw [set_bind, ask_bind] at h
    rcases timed_wait_iff.1 h with ⟨hrest, hc, hr⟩ | ⟨answer, rest', hrest, h⟩
    · subst hm hrest hc hr
      exact .givenUp hlive
    · cases answer with
      | error e =>
        obtain ⟨hrest', hc, hr⟩ := timed_done_iff.1 h
        subst hm hrest hrest' hc hr
        exact .failed hlive e
      | ok reference =>
        dsimp only at h
        rw [now_bind] at h
        obtain ⟨later, _, hrest', h⟩ := timed_clock_iff.1 h
        obtain ⟨hnil, hc, hr⟩ := timed_done_iff.1 h
        subst hm hrest hrest' hnil hc hr
        exact .fetched hlive reference later

theorem peek_of_live {now : Nat} {reference : BlockReference}
    (h : cache.live? now = some reference) :
    cache.peek = some reference := by
  unfold live? at h
  cases hslot : cache.slot with
  | none =>
    rw [hslot] at h
    cases h
  | some cached =>
    rw [hslot] at h
    by_cases hfresh : now - cached.fetchedAt < cache.ttl
    · rw [peek, hslot, Option.map_some, ← (if_pos hfresh).symm.trans h]
    · cases (if_neg hfresh).symm.trans h

namespace Fetches

variable {now : Nat}

theorem queries (h : Fetches cache now moments cache' r) :
    ∀ e ∈ Moment.exchanges moments, e.query = .blockReference := by
  cases h with
  | hit | givenUp | failed | fetched => simp

theorem length_le (h : Fetches cache now moments cache' r) :
    (Moment.exchanges moments).length ≤ 1 := by
  cases h with
  | hit | givenUp | failed | fetched => simp

theorem prompt (h : Fetches cache now moments cache' r) : Prompt (Moment.exchanges moments) r := by
  cases h with
  | hit => exact .nil _
  | givenUp => exact .one_givenUp _
  | failed _ e => exact .one_failed (.blockReference e)
  | fetched _ reference => exact .done (by simpa using .blockReference reference) _

theorem exists_cons (h : Fetches cache now moments cache' r) :
    ∃ rest, moments = .clock now :: rest := by
  cases h with
  | hit | givenUp | failed | fetched => exact ⟨_, rfl⟩

theorem asks_iff (h : Fetches cache now moments cache' r) :
    (∃ e ∈ Moment.exchanges moments, e.query = .blockReference) ↔ cache.live? now = none := by
  cases h with
  | hit h => simp [h]
  | givenUp h | failed h | fetched h => simp [h]

theorem of_error {e : ClientError} (h : Fetches cache now moments cache' (some (.error e))) :
    (∃ error, e = .rpc error) ∧ cache' = cache.invalidate := by
  cases h with
  | failed _ error => exact ⟨⟨error, rfl⟩, rfl⟩

theorem of_ok {reference : BlockReference}
    (h : Fetches cache now moments cache' (some (.ok reference))) :
    cache'.peek = some reference ∧ (cache.live? now = some reference ∧ cache' = cache ∨
      ⟨.blockReference, some (Except.ok reference)⟩ ∈ Moment.exchanges moments) := by
  cases h with
  | hit h => exact ⟨peek_of_live h, .inl ⟨h, rfl⟩⟩
  | fetched => exact ⟨rfl, .inr (by simp)⟩

theorem exchanges_of_ok {reference : BlockReference}
    (h : Fetches cache now moments cache' (some (.ok reference))) :
    Moment.exchanges moments = [⟨.blockReference, some (Except.ok reference)⟩] ∨
      Moment.exchanges moments = [] ∧ ∃ now, cache.live? now = some reference := by
  cases h with
  | hit h => exact .inr ⟨rfl, now, h⟩
  | fetched => exact .inl rfl

end Fetches

end ValidatorClient.BlockhashCache
