import ValidatorClient.Codec.OrderedMap
import Mathlib.Data.List.Nodup

namespace ValidatorClient.Codec.OrderedMap

variable {κ ν : Type}

def keys (m : OrderedMap κ ν) : List κ := m.entries.map (·.1)

theorem nodup_keys_empty : (empty : OrderedMap κ ν).keys.Nodup := List.nodup_nil

variable [DecidableEq κ]

theorem get?_eq_none_iff {m : OrderedMap κ ν} {key : κ} : m.get? key = none ↔ key ∉ m.keys := by
  rw [get?, Option.map_eq_none_iff, List.find?_eq_none, keys, List.mem_map, not_exists]
  constructor
  · intro h entry hentry
    exact h entry hentry.1 (decide_eq_true hentry.2)
  · intro h entry hentry hkey
    exact h entry ⟨hentry, of_decide_eq_true hkey⟩

theorem replaceOrAppend_of_notMem {key : κ} {value : ν} {entries : List (κ × ν)}
    (h : key ∉ entries.map (·.1)) :
    replaceOrAppend key value entries = entries ++ [(key, value)] := by
  induction entries with
  | nil => rfl
  | cons entry entries ih =>
    rw [List.map_cons, List.mem_cons, not_or] at h
    rw [replaceOrAppend, if_neg (Ne.symm h.1), ih h.2, List.cons_append]

theorem insert_of_notMem {m : OrderedMap κ ν} {key : κ} (h : key ∉ m.keys) (value : ν) :
    m.insert key value = (none, ⟨m.entries ++ [(key, value)]⟩) := by
  rw [insert, get?_eq_none_iff.2 h, replaceOrAppend_of_notMem h]

theorem insert_of_mem {m : OrderedMap κ ν} {key : κ} (h : key ∈ m.keys) (value : ν) :
    ∃ old m', m.insert key value = (some old, m') := by
  obtain ⟨old, hold⟩ := Option.ne_none_iff_exists'.1 (mt get?_eq_none_iff.1 (not_not_intro h))
  exact ⟨old, _, by rw [insert, hold]⟩

theorem firstRepeat_eq_none_iff {seen ks : List κ} :
    firstRepeat seen ks = none ↔ ks.Nodup ∧ ∀ k ∈ ks, k ∉ seen := by
  induction ks generalizing seen with
  | nil => simp [firstRepeat]
  | cons k ks ih =>
    rw [firstRepeat, List.nodup_cons]
    split
    · rename_i hk
      simp [hk]
    · rename_i hk
      rw [Option.map_eq_none_iff, ih]
      constructor
      · intro h
        refine ⟨⟨fun hmem ↦ h.2 k hmem List.mem_cons_self, h.1⟩, fun k' hk' ↦ ?_⟩
        cases hk' with
        | head => exact hk
        | tail _ hk' => exact fun hs ↦ h.2 k' hk' (List.mem_cons_of_mem k hs)
      · intro h
        refine ⟨h.1.2, fun k' hk' hs ↦ ?_⟩
        cases hs with
        | head => exact h.1.1 hk'
        | tail _ hs => exact h.2 k' (List.mem_cons_of_mem k hk') hs

theorem firstDuplicate_eq_none_iff {m : OrderedMap κ ν} :
    m.firstDuplicate = none ↔ m.keys.Nodup := by
  rw [firstDuplicate, firstRepeat_eq_none_iff]
  simp [keys]

end ValidatorClient.Codec.OrderedMap
