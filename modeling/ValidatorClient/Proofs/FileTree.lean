import ValidatorClient.FileTree
import ValidatorClient.Proofs.Except
import ValidatorClient.Proofs.Text.Utf8

namespace ValidatorClient

namespace Change

variable {σ ε δ α β : Type} {s s' : σ}

theorem bind_apply (x : Change σ ε α) (f : α → Change σ ε β) (s : σ) :
    (x >>= f).apply s = match x.apply s with
      | (.ok a, t) => (f a).apply t
      | (.error e, t) => (.error e, t) := by
  change (ExceptT.bindCont f (x.run s).1).run (x.run s).2 = _
  unfold apply
  rcases x.run s with ⟨_ | _, _⟩ <;> rfl

theorem bind_apply_eq_ok_iff {x : Change σ ε α} {f : α → Change σ ε β} {b : β} :
    (x >>= f).apply s = (.ok b, s') ↔
      ∃ a t, x.apply s = (.ok a, t) ∧ (f a).apply t = (.ok b, s') := by
  rw [bind_apply]
  rcases x.apply s with ⟨e | a, t⟩ <;> simp

theorem bind_apply_eq_error_iff {x : Change σ ε α} {f : α → Change σ ε β} {e : ε} :
    (x >>= f).apply s = (.error e, s') ↔
      x.apply s = (.error e, s') ∨ ∃ a t, x.apply s = (.ok a, t) ∧
        (f a).apply t = (.error e, s') := by
  rw [bind_apply]
  rcases x.apply s with ⟨e | a, t⟩ <;> simp

theorem apply_liftExcept (x : Except ε α) (s : σ) :
    (liftExcept x : Change σ ε α).apply s = (x, s) := by
  cases x <;> rfl

theorem apply_adapt (x : Change σ ε α) (f : ε → δ) :
    apply (ExceptT.adapt f x) s = ((x.apply s).1.mapError f, (x.apply s).2) := by
  unfold apply
  change (Functor.map (Except.mapError f) (ExceptT.run x)).run s = _
  rfl

theorem adapt_apply_eq_ok_iff {x : Change σ ε α} {f : ε → δ} {a : α} :
    apply (ExceptT.adapt f x) s = (.ok a, s') ↔ x.apply s = (.ok a, s') := by
  rw [apply_adapt, Prod.ext_iff, Prod.ext_iff, Except.mapError_eq_ok_iff]

theorem adapt_apply_eq_error_iff {x : Change σ ε α} {f : ε → δ} {d : δ} :
    apply (ExceptT.adapt f x) s = (.error d, s') ↔ ∃ e, x.apply s = (.error e, s') ∧ f e = d := by
  rw [apply_adapt, Prod.ext_iff, Except.mapError_eq_error_iff]
  simp only [Prod.ext_iff]
  constructor
  · intro h
    obtain ⟨⟨e, he, hd⟩, hs⟩ := h
    exact ⟨e, ⟨he, hs⟩, hd⟩
  · intro h
    obtain ⟨e, ⟨he, hs⟩, hd⟩ := h
    exact ⟨⟨e, he, hd⟩, hs⟩

end Change

namespace FileTree

open Entry

variable {t t' : FileTree} {path : String} {content : Bytes}

theorem write_apply (path : String) (content : Bytes) (t : FileTree) :
    (write path content).apply t = match t.target path with
    | .error fault => (.error fault, t)
    | .ok place =>
      match t.find? place with
      | some (directory _) => (.error .isDirectory, t)
      | some (file _ mode) => (.ok (), t.putAt (file content mode) place)
      | none => (.ok (), t.putAt (file content defaultMode) place) := by
  rw [write, Change.bind_apply]
  change Change.apply (liftExcept (t.target path) >>= _) t = _
  rw [Change.bind_apply, Change.apply_liftExcept]
  cases t.target path with
  | error => rfl
  | ok place =>
    dsimp only
    cases t.find? place with
    | none => rfl
    | some entry => cases entry <;> rfl

theorem write_eq_ok (h : (write path content).apply t = (.ok (), t')) :
    ∃ place mode, t.target path = .ok place ∧
      (∀ entries, t.find? place ≠ some (directory entries)) ∧
      t' = t.putAt (file content mode) place := by
  rw [write_apply] at h
  cases htarget : t.target path with
  | error e =>
    rw [htarget] at h
    cases h
  | ok place =>
    rw [htarget] at h
    dsimp only at h
    cases hentry : t.find? place with
    | none =>
      rw [hentry] at h
      cases h
      exact ⟨place, _, rfl, by simp [hentry], rfl⟩
    | some entry =>
      rw [hentry] at h
      cases entry with
      | file old mode =>
        cases h
        exact ⟨place, mode, rfl, by simp [hentry], rfl⟩
      | directory entries => cases h

theorem target_eq_walk {p : Path} (hp : Path.ofText path = .ok p) (hslash : p.endsInSlash = false) :
    t.target path = t.walk (t.start p) p.names := by
  rw [target, hp]
  change t.walk (t.start p) (if p.endsInSlash then p.names.dropLast ++ ["."] else p.names) = _
  rw [hslash, if_neg Bool.false_ne_true]

theorem exists_write_of_save (h : (save path content).apply t = (.ok (), t')) :
    ∃ t₁, (write path content).apply t₁ = (.ok (), t') := by
  unfold save at h
  cases hparent : Path.parent? path with
  | none =>
    rw [hparent] at h
    exact ⟨t, Change.adapt_apply_eq_ok_iff.1 h⟩
  | some parent =>
    rw [hparent] at h
    obtain ⟨_, t₁, -, h⟩ := Change.bind_apply_eq_ok_iff.1 h
    exact ⟨t₁, Change.adapt_apply_eq_ok_iff.1 h⟩

theorem lookup_filter_ne {α : Type} {entries : List (String × α)} {key name : String}
    (h : key ≠ name) :
    (entries.filter (·.1 ≠ name)).lookup key = entries.lookup key := by
  induction entries with
  | nil => rfl
  | cons entry entries ih =>
    obtain ⟨other, a⟩ := entry
    by_cases hother : other = name
    · rw [List.filter_cons_of_neg (by simpa using hother), ih, List.lookup_cons,
        beq_false_of_ne fun heq ↦ h (heq.trans hother)]
    · rw [List.filter_cons_of_pos (by simpa using hother), List.lookup_cons, List.lookup_cons, ih]

/-- A file that is put where no directory was leaves all directories. -/
theorem exists_directory_put {t : Entry} {names : List String}
    (h : ∀ entries, t.at? names ≠ some (directory entries)) {mode : Nat} {above : List String}
    {entries : List (String × Entry)} (habove : t.at? above = some (directory entries)) :
    ∃ entries', (put (file content mode) names t).at? above = some (directory entries') := by
  have hentries (es : List (String × Entry)) : (directory es).entries = es := rfl
  induction names generalizing t above with
  | nil =>
    cases t with
    | directory es => exact absurd rfl (h es)
    | file old mode =>
      cases above with
      | nil => cases habove
      | cons name above => simp [at?, Entry.entries] at habove
  | cons name names ih =>
    cases above with
    | nil => exact ⟨_, rfl⟩
    | cons other above =>
      rw [at?] at habove
      obtain ⟨sub, hsub, habove⟩ := Option.bind_eq_some_iff.1 habove
      by_cases hname : other = name
      · subst hname
        have hat : ∀ entries, sub.at? names ≠ some (directory entries) := by
          simpa [at?, hsub] using h
        simpa [put, at?, hentries, hsub] using ih hat habove
      · have hother :
            (put (file content mode) (name :: names) t).entries.lookup other = some sub := by
          rw [put, hentries, List.lookup_cons, beq_false_of_ne hname]
          exact (lookup_filter_ne hname).trans hsub
        rw [at?, hother]
        exact ⟨entries, habove⟩

section Walk

variable {place other next last : Place} {name : String} {names : List String} {mode : Nat}

theorem exists_directory_of_step (h : t.step place name = .ok next) :
    ∃ entries, t.find? place = some (directory entries) := by
  unfold step at h
  split at h
  case h_1 | h_2 => cases h
  case h_3 entries hentry => exact ⟨entries, hentry⟩

/-- What a directory holds makes no difference for where a name leads. -/
theorem step_congr {entries entries' : List (String × Entry)}
    (h : t.find? place = some (directory entries))
    (h' : t'.find? place = some (directory entries')) : t'.step place name = t.step place name := by
  unfold step
  rw [h, h']

theorem walk_cons_eq_ok_iff :
    t.walk place (name :: names) = .ok last ↔
      ∃ next, t.step place name = .ok next ∧ t.walk next names = .ok last := by
  rw [walk, List.foldlM_cons]
  exact Except.bind_eq_ok_iff

theorem find?_putAt (t : FileTree) (entry : Entry) (place : Place) :
    (t.putAt entry place).find? place = some entry := at?_put entry place t.root

theorem start_putAt (t : FileTree) (entry : Entry) (place : Place) (p : Path) :
    (t.putAt entry place).start p = t.start p := rfl

theorem exists_directory_putAt (h : ∀ entries, t.find? place ≠ some (directory entries))
    {entries : List (String × Entry)} (hother : t.find? other = some (directory entries)) :
    ∃ entries', (t.putAt (file content mode) place).find? other = some (directory entries') :=
  exists_directory_put h hother

theorem step_putAt (h : ∀ entries, t.find? place ≠ some (directory entries))
    (hstep : t.step other name = .ok next) :
    (t.putAt (file content mode) place).step other name = .ok next := by
  obtain ⟨entries, hentry⟩ := exists_directory_of_step hstep
  obtain ⟨entries', hput⟩ := exists_directory_putAt h hentry
  exact (step_congr hentry hput).trans hstep

theorem walk_putAt (h : ∀ entries, t.find? place ≠ some (directory entries))
    (hwalk : t.walk other names = .ok last) :
    (t.putAt (file content mode) place).walk other names = .ok last := by
  induction names generalizing other with
  | nil => exact hwalk
  | cons name names ih =>
    obtain ⟨next, hstep, hwalk⟩ := walk_cons_eq_ok_iff.1 hwalk
    exact walk_cons_eq_ok_iff.2 ⟨next, step_putAt h hstep, ih hwalk⟩

theorem exists_directory_of_walk_dot (h : t.walk place (names ++ ["."]) = .ok last) :
    ∃ entries, t.find? last = some (directory entries) := by
  rw [walk, List.foldlM_append] at h
  obtain ⟨next, -, h⟩ := Except.bind_eq_ok_iff.1 h
  obtain ⟨_, hstep, hlast⟩ := walk_cons_eq_ok_iff.1 h
  cases hlast
  obtain ⟨entries, hentry⟩ := exists_directory_of_step hstep
  unfold step at hstep
  rw [hentry] at hstep
  cases hstep
  exact ⟨entries, hentry⟩

end Walk

theorem read_putAt {p : Path} {place : Place} {mode : Nat} (hp : Path.ofText path = .ok p)
    (hslash : p.endsInSlash = false) (hwalk : t.walk (t.start p) p.names = .ok place)
    (h : ∀ entries, t.find? place ≠ some (directory entries)) :
    read (t.putAt (file content mode) place) path = .ok content := by
  refine Except.bind_eq_ok_iff.2 ⟨p, hp, Except.bind_eq_ok_iff.2 ⟨place, ?_, ?_⟩⟩
  · rw [start_putAt]
    exact walk_putAt h hwalk
  · rw [find?_putAt]
    dsimp only
    rw [hslash]
    rfl

theorem read_of_save (h : (save path content).apply t = (.ok (), t')) :
    t'.read path = .ok content := by
  obtain ⟨t₁, h⟩ := exists_write_of_save h
  obtain ⟨place, mode, htarget, hentry, rfl⟩ := write_eq_ok h
  obtain ⟨p, hp, hwalk⟩ := Except.bind_eq_ok_iff.1 htarget
  cases hslash : p.endsInSlash with
  | true =>
    rw [hslash, if_pos rfl] at hwalk
    obtain ⟨entries, hdirectory⟩ := exists_directory_of_walk_dot hwalk
    exact absurd hdirectory (hentry entries)
  | false => exact read_putAt hp hslash ((target_eq_walk hp hslash).symm.trans htarget) hentry

theorem exists_of_read (h : t.read path = .ok content) :
    ∃ p place mode, Path.ofText path = .ok p ∧ p.endsInSlash = false ∧
      t.walk (t.start p) p.names = .ok place ∧
      t.find? place = some (file content mode) := by
  obtain ⟨p, hp, h⟩ := Except.bind_eq_ok_iff.1 h
  obtain ⟨place, hwalk, h⟩ := Except.bind_eq_ok_iff.1 h
  cases hentry : t.find? place with
  | none =>
    rw [hentry] at h
    cases h
  | some entry =>
    rw [hentry] at h
    cases entry with
    | directory entries => cases h
    | file old mode =>
      dsimp only at h
      cases hslash : p.endsInSlash with
      | true =>
        rw [hslash] at h
        cases h
      | false =>
        rw [hslash] at h
        cases h
        exact ⟨p, place, mode, hp, hslash, hwalk, hentry⟩

theorem read_of_setMode {mode : Nat} (hread : t.read path = .ok content)
    (h : (setMode path mode).apply t = (.ok (), t')) : t'.read path = .ok content := by
  obtain ⟨p, place, old, hp, hslash, hwalk, hentry⟩ := exists_of_read hread
  have htarget := (target_eq_walk hp hslash).trans hwalk
  obtain ⟨_, _, hget, h⟩ := Change.bind_apply_eq_ok_iff.1 h
  cases hget
  obtain ⟨_, _, hplace, h⟩ := Change.bind_apply_eq_ok_iff.1 h
  rw [htarget] at hplace
  cases hplace
  rw [hentry] at h
  cases h
  exact read_putAt hp hslash hwalk fun entries hdirectory ↦ nomatch hentry.symm.trans hdirectory

theorem readText_eq_ok_iff {text : String} :
    t.readText path = .ok text ↔ t.read path = .ok (Text.Utf8.encode text) := by
  constructor
  · intro h
    obtain ⟨content, hread, h⟩ := Except.bind_eq_ok_iff.1 h
    cases hdecode : Text.Utf8.decode content with
    | error fault =>
      rw [hdecode] at h
      cases h
    | ok s =>
      rw [hdecode] at h
      cases h
      rw [hread, Text.Utf8.decode_eq_ok_iff.1 hdecode]
  · intro h
    refine Except.bind_eq_ok_iff.2 ⟨_, h, ?_⟩
    rw [Text.Utf8.decode_eq_ok_iff.2 rfl]
    rfl

theorem readText_of_read {text : String} (h : t.read path = .ok (Text.Utf8.encode text)) :
    t.readText path = .ok text := readText_eq_ok_iff.2 h

end FileTree

end ValidatorClient
