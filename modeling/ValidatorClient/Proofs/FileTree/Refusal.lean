import ValidatorClient.Proofs.FileTree
import ValidatorClient.Proofs.FileTree.Path

namespace ValidatorClient.FileTree

open Entry

variable {t t' : FileTree} {path : String} {content : Bytes} {place next last : Place}
  {name : String} {names rest : List String} {hasMade : Bool} {fault : Fault}

theorem makeMissing_cons :
    (makeMissing place hasMade (name :: names)).apply t = match t.step place name with
    | .error fault => (.error fault, t)
    | .ok next =>
      match t.find? next with
      | some (directory _) => (makeMissing next hasMade names).apply t
      | some (file _ _) => (.error (if hasMade ∨ names = [] then .exists else .notDirectory), t)
      | none => (makeMissing next true names).apply (t.putAt (directory []) next) := by
  rw [makeMissing, Change.bind_apply]
  change Change.apply (liftExcept (t.step place name) >>= _) t = _
  rw [Change.bind_apply, Change.apply_liftExcept]
  cases t.step place name with
  | error => rfl
  | ok next =>
    dsimp only
    cases t.find? next with
    | none => rfl
    | some entry => cases entry <;> rfl

theorem start_of_makeMissing {result : Except Fault Unit}
    (h : (makeMissing place hasMade names).apply t = (result, t')) : t'.start = t.start := by
  induction names generalizing place hasMade t with
  | nil =>
    cases h
    rfl
  | cons name names ih =>
    rw [makeMissing_cons] at h
    cases hstep : t.step place name with
    | error =>
      rw [hstep] at h
      cases h
      rfl
    | ok next =>
      rw [hstep] at h
      dsimp only at h
      cases hentry : t.find? next with
      | none =>
        rw [hentry] at h
        have hstart := ih h
        exact hstart
      | some entry =>
        rw [hentry] at h
        cases entry with
        | file =>
          cases h
          rfl
        | directory => exact ih h

theorem exists_directory_of_walk (h : t.walk place (names ++ name :: rest) = .ok last) :
    ∃ entries, t.find? place = some (directory entries) := by
  cases names with
  | nil =>
    obtain ⟨_, hstep, -⟩ := walk_cons_eq_ok_iff.1 h
    exact exists_directory_of_step hstep
  | cons first names =>
    obtain ⟨_, hstep, -⟩ := walk_cons_eq_ok_iff.1 h
    exact exists_directory_of_step hstep

theorem step_unique {next' : Place} (h : t.step place name = .ok next)
    (h' : t'.step place name = .ok next') : next = next' := by
  obtain ⟨entries, hentry⟩ := exists_directory_of_step h
  obtain ⟨entries', hentry'⟩ := exists_directory_of_step h'
  exact Except.ok.inj (h.symm.trans ((step_congr hentry' hentry).trans h'))

theorem makeMissing_of_walk (h : t.walk place (names ++ name :: rest) = .ok last) :
    (makeMissing place hasMade names).apply t = (.ok (), t) := by
  induction names generalizing place with
  | nil => rfl
  | cons first names ih =>
    rw [List.cons_append] at h
    obtain ⟨next, hstep, hwalk⟩ := walk_cons_eq_ok_iff.1 h
    obtain ⟨entries, hentry⟩ := exists_directory_of_walk hwalk
    rw [makeMissing_cons, hstep]
    dsimp only
    rw [hentry]
    exact ih hwalk

/-- Where directories could not be made, nothing is found behind them afterwards. -/
theorem not_walk_of_makeMissing
    (h : (makeMissing place hasMade names).apply t = (.error fault, t')) :
    t'.walk place (names ++ name :: rest) ≠ .ok last := by
  induction names generalizing place hasMade t with
  | nil => cases h
  | cons first names ih =>
    intro hwalk
    rw [List.cons_append] at hwalk
    obtain ⟨next, hstep, hwalk⟩ := walk_cons_eq_ok_iff.1 hwalk
    rw [makeMissing_cons] at h
    cases hstep' : t.step place first with
    | error =>
      rw [hstep'] at h
      cases h
      cases hstep.symm.trans hstep'
    | ok next' =>
      obtain rfl := step_unique hstep' hstep
      rw [hstep'] at h
      dsimp only at h
      cases hentry : t.find? next' with
      | none =>
        rw [hentry] at h
        exact ih h hwalk
      | some entry =>
        rw [hentry] at h
        cases entry with
        | directory => exact ih h hwalk
        | file =>
          cases h
          obtain ⟨entries, hdirectory⟩ := exists_directory_of_walk hwalk
          cases hentry.symm.trans hdirectory

theorem exists_write_of_read {old : Bytes} (h : t.read path = .ok old) (content : Bytes) :
    ∃ t', (write path content).apply t = (.ok (), t') := by
  obtain ⟨p, place, mode, hp, hslash, hwalk, hentry⟩ := exists_of_read h
  rw [write_apply, target_eq_walk hp hslash, hwalk]
  dsimp only
  rw [hentry]
  exact ⟨_, rfl⟩

theorem eq_of_write_eq_error (h : (write path content).apply t = (.error fault, t')) : t' = t := by
  rw [write_apply] at h
  cases htarget : t.target path with
  | error =>
    rw [htarget] at h
    cases h
    rfl
  | ok place =>
    rw [htarget] at h
    dsimp only at h
    cases hentry : t.find? place with
    | none =>
      rw [hentry] at h
      cases h
    | some entry =>
      rw [hentry] at h
      cases entry with
      | file => cases h
      | directory =>
        cases h
        rfl

section Save

variable {parent : String} {p q : Path} {old : Bytes}

theorem exists_walk_of_read (hread : t.read path = .ok old) (h : Path.parent? path = some parent)
    (hne : parent ≠ "") (hq : Path.ofText parent = .ok q) :
    ∃ name rest last, t.walk (t.start q) (q.names ++ name :: rest) = .ok last := by
  obtain ⟨p, last, _, hp, -, hwalk, -⟩ := exists_of_read hread
  obtain ⟨hstart, name, rest, hnames⟩ := Path.names_of_parent h hne hp hq
  refine ⟨name, rest, last, ?_⟩
  rw [← hnames, start, hstart]
  exact hwalk

theorem makeDirectories_cases {result : Except Fault Unit}
    (h : (makeDirectories parent).apply t = (result, t')) :
    t' = t ∨ ∃ q, parent ≠ "" ∧ Path.ofText parent = .ok q ∧
      (makeMissing (t.start q) false q.names).apply t = (result, t') := by
  rw [makeDirectories] at h
  by_cases hempty : parent = ""
  · rw [if_pos hempty] at h
    cases h
    exact .inl rfl
  · rw [if_neg hempty, Change.bind_apply, Change.apply_liftExcept] at h
    cases hq : Path.ofText parent with
    | error =>
      rw [hq] at h
      cases h
      exact .inl rfl
    | ok q =>
      rw [hq] at h
      exact .inr ⟨q, hempty, rfl, h⟩

theorem eq_of_makeDirectories (h : Path.parent? path = some parent) (hread : t.read path = .ok old)
    {result : Except Fault Unit} (hmade : (makeDirectories parent).apply t = (result, t')) :
    t' = t := by
  rcases makeDirectories_cases hmade with rfl | ⟨q, hne, hq, hmissing⟩
  · rfl
  · obtain ⟨name, rest, last, hwalk⟩ := exists_walk_of_read hread h hne hq
    cases hmissing.symm.trans (makeMissing_of_walk hwalk)
    rfl

theorem not_read_of_makeDirectories (h : Path.parent? path = some parent)
    (hmade : (makeDirectories parent).apply t = (.error fault, t')) (hchanged : t' ≠ t) :
    t'.read path ≠ .ok old := by
  intro hread
  rcases makeDirectories_cases hmade with rfl | ⟨q, hne, hq, hmissing⟩
  · exact hchanged rfl
  · obtain ⟨name, rest, last, hwalk⟩ := exists_walk_of_read hread h hne hq
    rw [start_of_makeMissing hmissing] at hwalk
    exact not_walk_of_makeMissing hmissing hwalk

/-- A file that could not be saved cannot be read, neither before nor afterwards, or nothing has
changed at all. -/
theorem not_read_of_refused_save {fault : SaveFault}
    (h : (save path content).apply t = (.error fault, t')) :
    t' = t ∨ ∀ old, t.read path ≠ .ok old ∧ t'.read path ≠ .ok old := by
  rw [or_iff_not_imp_left]
  intro hchanged old
  unfold save at h
  cases hparent : Path.parent? path with
  | none =>
    rw [hparent] at h
    obtain ⟨_, hwrite, -⟩ := Change.adapt_apply_eq_error_iff.1 h
    exact absurd (eq_of_write_eq_error hwrite) hchanged
  | some parent =>
    rw [hparent] at h
    rcases Change.bind_apply_eq_error_iff.1 h with hmade | ⟨_, t₁, hmade, hwrite⟩
    · obtain ⟨_, hmade, -⟩ := Change.adapt_apply_eq_error_iff.1 hmade
      exact ⟨fun hread ↦ hchanged (eq_of_makeDirectories hparent hread hmade),
        not_read_of_makeDirectories hparent hmade hchanged⟩
    · have hmade := Change.adapt_apply_eq_ok_iff.1 hmade
      obtain ⟨_, hwrite, -⟩ := Change.adapt_apply_eq_error_iff.1 hwrite
      obtain rfl := eq_of_write_eq_error hwrite
      refine ⟨fun hread ↦ hchanged (eq_of_makeDirectories hparent hread hmade), fun hread ↦ ?_⟩
      obtain ⟨_, hwritten⟩ := exists_write_of_read hread content
      cases hwritten.symm.trans hwrite

theorem readText_of_refused_save {fault : SaveFault} {text : String}
    (h : (save path content).apply t = (.error fault, t')) :
    t'.readText path = .ok text ↔ t.readText path = .ok text := by
  rw [readText_eq_ok_iff, readText_eq_ok_iff]
  rcases not_read_of_refused_save h with rfl | hnot
  · rfl
  · exact iff_of_false (hnot _).2 (hnot _).1

end Save

end ValidatorClient.FileTree
