import Mathlib.Data.String.Basic
import ValidatorClient.FileTree.Path

namespace ValidatorClient.FileTree

namespace Path

variable {s parent : String} {ps : List String} {cs part : List Char} {p q : Path}

theorem splitSlashes_eq (cs : List Char) : splitSlashes cs = cs.splitOn '/' := by
  fun_induction splitSlashes cs with
  | case1 => rfl
  | case2 cs ih =>
    rw [ih, List.splitOn_cons_eq_if_modifyHead]
    rfl
  | case3 c cs hc part parts hparts ih =>
    rw [List.splitOn_cons_eq_if_modifyHead, ← ih, hparts, if_neg (by simpa using hc)]
    rfl
  | case4 c cs hc hparts ih => exact absurd (ih.symm.trans hparts) (List.splitOn_ne_nil _ _)

theorem slash_notMem_of_mem_splitSlashes (h : part ∈ splitSlashes cs) : '/' ∉ part := by
  fun_induction splitSlashes cs generalizing part with
  | case1 =>
    rw [List.mem_singleton.1 h]
    exact List.not_mem_nil
  | case2 cs ih =>
    rcases List.mem_cons.1 h with rfl | h
    · exact List.not_mem_nil
    · exact ih h
  | case3 c cs hc first rest hparts ih =>
    rw [hparts] at ih
    rcases List.mem_cons.1 h with rfl | h
    · rw [List.mem_cons, not_or]
      exact ⟨fun heq ↦ hc heq.symm, ih List.mem_cons_self⟩
    · exact ih (List.mem_cons_of_mem first h)
  | case4 c cs hc hparts ih =>
    rw [List.mem_singleton.1 h, List.mem_singleton]
    exact fun heq ↦ hc heq.symm

theorem slash_notMem_of_mem_parts {part : String} (h : part ∈ parts s) : '/' ∉ part.toList := by
  obtain ⟨cs, hcs, rfl⟩ := List.mem_map.1 h
  rw [String.toList_ofList]
  exact slash_notMem_of_mem_splitSlashes hcs

theorem parts_intercalate (hne : ps ≠ []) (h : ∀ part ∈ ps, '/' ∉ part.toList) :
    parts ("/".intercalate ps) = ps := by
  have hparts : ∀ cs ∈ ps.map String.toList, '/' ∉ cs := by simpa using h
  have hslash : "/".toList = ['/'] := rfl
  rw [parts, splitSlashes_eq, String.toList_intercalate, hslash,
    List.splitOn_intercalate '/' hparts (by simpa using hne)]
  simp

theorem intercalate_parts (s : String) : "/".intercalate (parts s) = s := by
  have hslash : "/".toList = ['/'] := rfl
  rw [← String.toList_inj, String.toList_intercalate, parts, splitSlashes_eq, hslash]
  simp

theorem dropIdle_cases (ps : List String) : dropIdle ps = [] ∨
    ∃ idle part above, ps = idle ++ part :: above ∧ part ≠ "" ∧ dropIdle ps = part :: above := by
  induction ps with
  | nil => exact .inl rfl
  | cons part ps ih =>
    rw [dropIdle]
    by_cases hidle : part = "" ∨ part = "." ∧ ps ≠ []
    · rw [if_pos hidle]
      rcases ih with h | ⟨idle, name, above, rfl, hname, h⟩
      · exact .inl h
      · exact .inr ⟨part :: idle, name, above, rfl, hname, h⟩
    · rw [if_neg hidle]
      exact .inr ⟨[], part, ps, rfl, fun hpart ↦ hidle (.inl hpart), rfl⟩

theorem startsWith_append {t u : String} (ht : t ≠ "") :
    (t ++ u).startsWith "/" = t.startsWith "/" := by
  rw [Bool.eq_iff_iff, String.startsWith_string_iff, String.startsWith_string_iff,
    String.toList_append]
  cases hchars : t.toList with
  | nil => exact absurd (String.toList_inj.1 hchars) ht
  | cons c cs =>
    change ['/'] <+: c :: (cs ++ u.toList) ↔ ['/'] <+: c :: cs
    rw [List.cons_prefix_cons, List.cons_prefix_cons]
    simp

theorem ofText_eq_ok (h : ofText s = .ok p) :
    p.isAbsolute = s.startsWith "/" ∧ p.names = (parts s).filter (· ≠ "") := by
  unfold ofText at h
  split_ifs at h
  cases h
  exact ⟨rfl, rfl⟩

theorem exists_names {part : String} (h : part ∈ ps) (hne : part ≠ "") :
    ∃ name rest, ps.filter (· ≠ "") = name :: rest := by
  refine List.exists_cons_of_ne_nil (List.ne_nil_of_mem (a := part) ?_)
  rw [List.mem_filter]
  exact ⟨h, by simpa using hne⟩

/-- The parts above a file are those of its path up to some point, with a name behind. -/
theorem parts_of_parent (h : parent? s = some parent) (hne : parent ≠ "") :
    (parent = "/" ∧ s.startsWith "/" ∧ ∃ part ∈ parts s, part ≠ "") ∨
      ∃ below part, parts s = parts parent ++ below ∧ part ∈ below ∧ part ≠ "" := by
  rw [parent?] at h
  rcases dropIdle_cases (parts s).reverse with hnil | ⟨idle, part, above, hparts, hpart, hdrop⟩
  · rw [hnil] at h
    cases h
  rw [hdrop] at h
  dsimp only at h
  have hs := (List.reverse_reverse (parts s)).symm.trans (congrArg List.reverse hparts)
  rcases dropIdle_cases above with hnil | ⟨idle', part', above', rfl, -, hdrop'⟩
  · rw [hnil] at h
    by_cases hstart : s.startsWith "/" = true
    · rw [if_pos hstart] at h
      cases h
      exact .inl ⟨rfl, hstart, part, by rw [hs]; simp, hpart⟩
    · rw [if_neg hstart] at h
      cases h
      exact absurd rfl hne
  · rw [hdrop'] at h
    cases h
    refine .inr ⟨idle'.reverse ++ part :: idle.reverse, part, ?_, by simp, hpart⟩
    rw [parts_intercalate (by simp) fun name hname ↦ slash_notMem_of_mem_parts (s := s) ?_, hs]
    · simp
    · rw [hs]
      rw [List.mem_reverse] at hname
      simp only [List.mem_reverse, List.mem_append]
      exact .inr (List.mem_cons_of_mem part (List.mem_append_right idle' hname))

theorem names_of_parent (h : parent? s = some parent) (hne : parent ≠ "") (hp : ofText s = .ok p)
    (hq : ofText parent = .ok q) :
    q.isAbsolute = p.isAbsolute ∧ ∃ name rest, p.names = q.names ++ name :: rest := by
  obtain ⟨hpstart, hpnames⟩ := ofText_eq_ok hp
  obtain ⟨hqstart, hqnames⟩ := ofText_eq_ok hq
  rw [hpstart, hqstart, hpnames, hqnames]
  rcases parts_of_parent h hne with
    ⟨rfl, hstart, part, hmem, hpart⟩ | ⟨below, part, hparts, hmem, hpart⟩
  · have hroot : (parts "/").filter (· ≠ "") = [] := by decide +kernel
    rw [hroot, hstart]
    exact ⟨String.startsWith_string_iff.2 List.prefix_rfl, exists_names hmem hpart⟩
  · obtain ⟨name, rest, hnames⟩ := exists_names hmem hpart
    refine ⟨?_, name, rest, by rw [hparts, List.filter_append, hnames]⟩
    have hbelow : below ≠ [] := List.ne_nil_of_mem hmem
    have hparent : parts parent ≠ [] := by
      rw [parts, splitSlashes_eq]
      simp
    rw [← intercalate_parts s, hparts, String.intercalate_append_of_ne_nil hparent hbelow,
      intercalate_parts, String.append_assoc, startsWith_append hne]

theorem splitSlashes_append (cs ds : List Char) :
    splitSlashes (cs ++ '/' :: ds) = splitSlashes cs ++ splitSlashes ds := by
  fun_induction splitSlashes cs with
  | case1 => rfl
  | case2 cs ih => exact congrArg ([] :: ·) ih
  | case3 c cs hc first rest hparts ih =>
    rw [List.cons_append, splitSlashes, ih, hparts]
    · rfl
    · exact hc
  | case4 c cs hc hparts ih =>
    exact absurd ((splitSlashes_eq cs).symm.trans hparts) (List.splitOn_ne_nil _ _)

theorem parts_append (s t : String) : parts (s ++ "/" ++ t) = parts s ++ parts t := by
  have hslash : "/".toList = ['/'] := rfl
  rw [parts, String.toList_append, String.toList_append, hslash, List.append_assoc,
    List.singleton_append, splitSlashes_append, List.map_append]
  rfl

theorem parts_of_slash_notMem {name : String} (h : '/' ∉ name.toList) : parts name = [name] := by
  have hname : parts ("/".intercalate [name]) = [name] :=
    parts_intercalate (List.cons_ne_nil _ _) (by simpa using h)
  rwa [String.intercalate_singleton] at hname

theorem exists_of_endsWith (h : s.endsWith "/" = true) : ∃ above, s = above ++ "/" := by
  rw [String.endsWith_eq_endsWith_toSlice, String.Slice.endsWith_string_iff,
    String.copy_toSlice] at h
  obtain ⟨cs, hcs⟩ := h
  refine ⟨String.ofList cs, ?_⟩
  rw [← String.toList_inj, String.toList_append, String.toList_ofList, hcs]

theorem names_append_slash (s : String) :
    (parts (s ++ "/")).filter (· ≠ "") = (parts s).filter (· ≠ "") := by
  have hnothing : (parts "").filter (· ≠ "") = [] := by decide +kernel
  rw [← String.append_empty (s := s ++ "/"), parts_append, List.filter_append, hnothing,
    List.append_nil]

/-- A name in a directory comes after the names of the directory, whether or not a slash ends
those. -/
theorem names_push {name : String} (hne : name ≠ "") (hslash : '/' ∉ name.toList) (s : String) :
    (parts (push s name)).filter (· ≠ "") = (parts s).filter (· ≠ "") ++ [name] := by
  have hstart : ¬ name.startsWith "/" = true := by
    rw [String.startsWith_string_iff]
    intro hstart
    exact hslash (hstart.subset (List.mem_singleton_self '/'))
  have hname : (parts name).filter (· ≠ "") = [name] := by
    rw [parts_of_slash_notMem hslash]
    exact List.filter_cons_of_pos (by simpa using hne)
  rw [push, if_neg hstart]
  by_cases hempty : s = ""
  · rw [if_pos (.inl hempty), hempty, String.empty_append]
    exact hname
  by_cases hend : s.endsWith "/" = true
  · rw [if_pos (.inr hend)]
    obtain ⟨above, rfl⟩ := exists_of_endsWith hend
    rw [parts_append, List.filter_append, hname, names_append_slash]
  · rw [if_neg (not_or.2 ⟨hempty, hend⟩), parts_append, List.filter_append, hname]

theorem names_foldl_push {names : List String} (h : ∀ name ∈ names, name ≠ "" ∧ '/' ∉ name.toList)
    (s : String) :
    (parts (names.foldl push s)).filter (· ≠ "") = (parts s).filter (· ≠ "") ++ names := by
  induction names generalizing s with
  | nil => exact (List.append_nil _).symm
  | cons name names ih =>
    obtain ⟨hname, hnames⟩ := List.forall_mem_cons.1 h
    rw [List.foldl_cons, ih hnames, names_push hname.1 hname.2, List.append_assoc]
    rfl

end Path

end ValidatorClient.FileTree
