import Mathlib.Data.List.TakeWhile
import ValidatorClient.Text.Blank

namespace ValidatorClient.Text.Blank

variable {s t : String}

/-- The second text stands in the first between blanks, and neither begins nor ends with one. -/
def IsTrimmed (s t : String) : Prop :=
  ∃ before after, s.toList = before ++ (t.toList ++ after) ∧ (∀ c ∈ before, isBlank c = true) ∧
    (∀ c ∈ after, isBlank c = true) ∧ (∀ c, t.toList.head? = some c → isBlank c = false) ∧
    ∀ c, t.toList.getLast? = some c → isBlank c = false

theorem dropWhile_append_of_head {cs rest : List Char} (hcs : ∀ c ∈ cs, isBlank c = true)
    (hrest : ∀ c, rest.head? = some c → isBlank c = false) :
    (cs ++ rest).dropWhile isBlank = rest := by
  rw [List.dropWhile_append_of_pos hcs]
  cases rest with
  | nil => rfl
  | cons c rest => simp [hrest c rfl]

theorem isBlank_head?_dropWhile {cs : List Char} {c : Char}
    (h : (cs.dropWhile isBlank).head? = some c) :
    isBlank c = false := by
  have hnot := List.head?_dropWhile_not isBlank cs
  rw [h] at hnot
  simpa using hnot

theorem isTrimmed_trim (s : String) : IsTrimmed s (trim s) := by
  have hparts (cs : List Char) :
      cs = (cs.reverse.dropWhile isBlank).reverse ++ (cs.reverse.takeWhile isBlank).reverse := by
    rw [← List.reverse_append, List.takeWhile_append_dropWhile, List.reverse_reverse]
  have htrim : (trim s).toList = ((s.toList.dropWhile isBlank).reverse.dropWhile isBlank).reverse :=
    String.toList_ofList
  refine ⟨s.toList.takeWhile isBlank,
    ((s.toList.dropWhile isBlank).reverse.takeWhile isBlank).reverse, ?whole, ?before, ?after,
    ?first, ?last⟩
  case whole => rw [htrim, ← hparts, List.takeWhile_append_dropWhile]
  case before => exact fun c hc ↦ List.mem_takeWhile_imp hc
  case after => exact fun c hc ↦ List.mem_takeWhile_imp (List.mem_reverse.1 hc)
  case first =>
    intro c hc
    refine isBlank_head?_dropWhile (?_ : (s.toList.dropWhile isBlank).head? = some c)
    rw [hparts (s.toList.dropWhile isBlank), ← htrim, List.head?_append, hc]
    rfl
  case last =>
    intro c hc
    rw [htrim, List.getLast?_reverse] at hc
    exact isBlank_head?_dropWhile hc

theorem IsTrimmed.trim_eq (h : IsTrimmed s t) : trim s = t := by
  obtain ⟨before, after, hs, hbefore, hafter, hfirst, hlast⟩ := h
  -- if all is blank, nothing is left for the end to be taken from
  have hfront : s.toList.dropWhile isBlank = t.toList ++ after ∨
      t.toList = [] ∧ s.toList.dropWhile isBlank = [] := by
    cases ht : t.toList with
    | nil =>
      rw [hs, ht, List.nil_append, List.dropWhile_eq_nil_iff]
      exact .inr ⟨rfl, List.forall_mem_append.2 ⟨hbefore, hafter⟩⟩
    | cons c cs =>
      rw [hs, ht]
      refine .inl (dropWhile_append_of_head hbefore fun d hd ↦ hfirst d ?_)
      rwa [ht]
  have hback : ((s.toList.dropWhile isBlank).reverse.dropWhile isBlank).reverse = t.toList := by
    rcases hfront with hfront | ⟨ht, hfront⟩
    · rw [hfront, List.reverse_append, dropWhile_append_of_head, List.reverse_reverse]
      · simpa using hafter
      · simpa using hlast
    · rw [hfront, ht]
      rfl
  rw [trim, hback, String.ofList_toList]

theorem trim_eq_iff : trim s = t ↔ IsTrimmed s t := by
  constructor
  · intro h
    rw [← h]
    exact isTrimmed_trim s
  · exact IsTrimmed.trim_eq

theorem trim_trim (s : String) : trim (trim s) = trim s := by
  obtain ⟨_, _, -, -, -, hfirst, hlast⟩ := isTrimmed_trim s
  exact trim_eq_iff.2 ⟨[], [], by simp, nofun, nofun, hfirst, hlast⟩

end ValidatorClient.Text.Blank
