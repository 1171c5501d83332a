import Mathlib.Data.List.Basic
import Mathlib.Data.List.Induction

namespace ValidatorClient

variable {α β : Type} [DecidableEq α]

theorem eraseDups_concat (l : List α) (a : α) :
    (l ++ [a]).eraseDups = if a ∈ l then l.eraseDups else l.eraseDups ++ [a] := by
  rw [List.eraseDups_append]
  by_cases h : a ∈ l
  · simp [h, List.removeAll]
  · simp [h, List.removeAll, List.eraseDups_cons]

theorem pairwise_eraseDups (l : List α) :
    l.eraseDups.Pairwise fun a b ↦ l.idxOf a < l.idxOf b := by
  induction l using List.reverseRecOn with
  | nil => simp
  | append_singleton l a ih =>
    have hold : l.eraseDups.Pairwise fun b c ↦ (l ++ [a]).idxOf b < (l ++ [a]).idxOf c := by
      refine ih.imp_of_mem fun hb hc h ↦ ?_
      rw [List.mem_eraseDups] at hb hc
      simpa [List.idxOf_append, hb, hc] using h
    rw [eraseDups_concat]
    by_cases ha : a ∈ l
    · simpa [ha] using hold
    · rw [if_neg ha, List.pairwise_append]
      refine ⟨hold, List.pairwise_singleton _ _, fun b hb c hc ↦ ?_⟩
      rw [List.mem_eraseDups] at hb
      rw [List.mem_singleton] at hc
      have h := List.idxOf_lt_length_of_mem hb
      simpa [hc, List.idxOf_append, hb, ha] using h

theorem nodup_eraseDups (l : List α) : l.eraseDups.Nodup :=
  (pairwise_eraseDups l).imp fun h hab ↦ by
    rw [hab] at h
    exact Nat.lt_irrefl _ h

theorem lookup_reverse_eq_some_iff {entries : List (α × β)} {a : α} {b : β} :
    entries.reverse.lookup a = some b ↔
      ∃ before after, entries = before ++ (a, b) :: after ∧ ∀ p ∈ after, p.1 ≠ a := by
  rw [List.lookup_eq_some_iff]
  constructor
  · intro h
    obtain ⟨after, before, heq, hne⟩ := h
    refine ⟨before.reverse, after.reverse, ?_, fun p hp heq ↦ ?_⟩
    · rw [← List.reverse_reverse entries, heq]
      simp
    · simpa [heq] using hne p (List.mem_reverse.1 hp)
  · intro h
    obtain ⟨before, after, rfl, hne⟩ := h
    refine ⟨after.reverse, before.reverse, by simp, fun p hp ↦ ?_⟩
    simpa using fun heq ↦ hne p (List.mem_reverse.1 hp) heq.symm

theorem lookup_reverse_cons (a key : α) (b : β) (entries : List (α × β)) :
    ((a, b) :: entries).reverse.lookup key =
      (entries.reverse.lookup key).or (if key = a then some b else none) := by
  rw [List.reverse_cons, List.lookup_append]
  by_cases h : key = a
  · simp [h]
  · simp [List.lookup_cons, beq_false_of_ne h, h]

theorem lookup_reverse_concat (a key : α) (b : β) (entries : List (α × β)) :
    (entries ++ [(a, b)]).reverse.lookup key = if a = key then some b
      else entries.reverse.lookup key := by
  rw [List.reverse_append, List.reverse_singleton, List.singleton_append]
  by_cases h : a = key
  · simp [h]
  · simp [List.lookup_cons, beq_false_of_ne (Ne.symm h), h]

theorem lookup_reverse_ne_none_iff {entries : List (α × β)} {a : α} :
    entries.reverse.lookup a ≠ none ↔ a ∈ entries.map (·.1) := by
  rw [Ne, List.lookup_eq_none_iff]
  simp [@eq_comm _ a]

end ValidatorClient
