import Mathlib.Data.List.Induction
import Mathlib.Data.String.Basic
import ValidatorClient.Proofs.FileTree.Refusal
import ValidatorClient.Proofs.Json.Written
import ValidatorClient.Proofs.Occurrence
import ValidatorClient.Settings.Store

namespace ValidatorClient.Store

namespace Entries

variable {entries : Entries} {key value other : String}

theorem get_cons (entry : String × String) (entries : Entries) :
    get (entry :: entries) other = if entry.1 = other then entry.2 else entries.get other := by
  by_cases h : entry.1 = other <;> simp [get, h]

theorem get_insert :
    (insert key value entries).get other = if key = other then value else entries.get other := by
  induction entries with
  | nil => exact get_cons (key, value) []
  | cons entry entries ih =>
    rw [insert]
    by_cases hkey : key = entry.1
    · rw [if_pos hkey, get_cons, get_cons, ← hkey]
      by_cases h : key = other <;> simp [h]
    rw [if_neg hkey]
    by_cases hlt : key < entry.1
    · rw [if_pos hlt, get_cons]
    · rw [if_neg hlt, get_cons, get_cons, ih]
      by_cases h : key = other
      · have hne : ¬ entry.1 = other := fun heq ↦ hkey (h.trans heq.symm)
        rw [if_neg hne, if_pos h, if_pos h]
      · rw [if_neg h, if_neg h]

theorem get_ofList (entries : List (String × String)) :
    (ofList entries).get other = (entries.reverse.lookup other).getD "" := by
  induction entries using List.reverseRecOn with
  | nil => rfl
  | append_singleton entries entry ih =>
    obtain ⟨key, value⟩ := entry
    rw [ofList, List.foldl_append, List.foldl_cons, List.foldl_nil, ← ofList, get_insert, ih,
      lookup_reverse_concat]
    by_cases h : key = other <;> simp [h]

def Ascends (entries : Entries) : Prop := entries.Pairwise (·.1 < ·.1)

theorem mem_insert {p : String × String} (h : p ∈ insert key value entries) :
    p.1 = key ∨ p ∈ entries := by
  induction entries with
  | nil => exact .inl (congrArg Prod.fst (List.mem_singleton.1 h))
  | cons entry entries ih =>
    rw [insert] at h
    split_ifs at h <;> rw [List.mem_cons] at h
    · exact h.imp (congrArg Prod.fst) (List.mem_cons_of_mem entry)
    · exact h.imp_left (congrArg Prod.fst)
    · rcases h with rfl | h
      · exact .inr List.mem_cons_self
      · exact (ih h).imp_right (List.mem_cons_of_mem entry)

theorem Ascends.insert (h : entries.Ascends) : (insert key value entries).Ascends := by
  induction entries with
  | nil => exact List.pairwise_singleton _ _
  | cons entry entries ih =>
    obtain ⟨hfirst, hrest⟩ := List.pairwise_cons.1 h
    rw [Entries.insert]
    by_cases hkey : key = entry.1
    · rw [if_pos hkey]
      exact List.pairwise_cons.2 ⟨hkey ▸ hfirst, hrest⟩
    rw [if_neg hkey]
    by_cases hlt : key < entry.1
    · rw [if_pos hlt]
      exact List.pairwise_cons.2
        ⟨List.forall_mem_cons.2 ⟨hlt, fun p hp ↦ lt_trans hlt (hfirst p hp)⟩, h⟩
    · rw [if_neg hlt]
      refine List.pairwise_cons.2 ⟨fun p hp ↦ ?_, ih hrest⟩
      rcases mem_insert hp with hp | hp
      · rw [hp]
        exact lt_of_le_of_ne (not_lt.1 hlt) (Ne.symm hkey)
      · exact hfirst p hp

theorem ascends_ofList (entries : List (String × String)) : (ofList entries).Ascends := by
  induction entries using List.reverseRecOn with
  | nil => exact .nil
  | append_singleton entries entry ih =>
    rw [ofList, List.foldl_append]
    exact ih.insert

theorem insert_of_lt (h : ∀ p ∈ entries, p.1 < key) :
    insert key value entries = entries ++ [(key, value)] := by
  induction entries with
  | nil => rfl
  | cons entry entries ih =>
    rw [List.forall_mem_cons] at h
    rw [insert, if_neg h.1.ne', if_neg h.1.not_gt, ih h.2, List.cons_append]

theorem Ascends.ofList_eq (h : entries.Ascends) : ofList entries = entries := by
  induction entries using List.reverseRecOn with
  | nil => rfl
  | append_singleton entries entry ih =>
    obtain ⟨key, value⟩ := entry
    rw [Ascends, List.pairwise_append] at h
    rw [ofList, List.foldl_append, List.foldl_cons, List.foldl_nil, ← ofList, ih h.1]
    refine insert_of_lt fun p hp ↦ ?_
    exact h.2.2 p hp (key, value) (List.mem_singleton_self _)

end Entries

/-- What a file holds under a key. Of two entries with that key the last counts, and a file that is
no object of texts holds nothing. -/
def held (files : FileTree) (path key : String) : String :=
  match files.readText path with
  | .error _ => ""
  | .ok text =>
    match (Json.Value.parse? text).bind Json.Value.texts? with
    | none => ""
    | some entries => (entries.reverse.lookup key).getD ""

section File

variable {files files' : FileTree} {path key value other : String}

theorem jsonFile_get : (jsonFile path).get files other = held files path other := by
  change (entriesOf files path).get other = _
  unfold entriesOf held
  cases files.readText path with
  | error => rfl
  | ok text =>
    dsimp only
    cases (Json.Value.parse? text).bind Json.Value.texts? with
    | none => rfl
    | some entries => exact Entries.get_ofList entries

theorem ascends_entriesOf : (entriesOf files path).Ascends := by
  unfold entriesOf
  split
  · exact .nil
  · split
    · exact Entries.ascends_ofList _
    · exact .nil

theorem entriesOf_set (h : ((jsonFile path).set key value).apply files = (.ok (), files')) :
    entriesOf files' path = (entriesOf files path).insert key value := by
  obtain ⟨_, _, hget, h⟩ := Change.bind_apply_eq_ok_iff.1 h
  cases hget
  have htext := FileTree.readText_of_read (FileTree.read_of_save (Change.adapt_apply_eq_ok_iff.1 h))
  rw [entriesOf, htext]
  dsimp only
  rw [Json.Value.texts?_of_textsText]
  exact ascends_entriesOf.insert.ofList_eq

theorem jsonFile_get_set (h : ((jsonFile path).set key value).apply files = (.ok (), files')) :
    (jsonFile path).get files' other = if key = other then value
      else (jsonFile path).get files other := by
  change (entriesOf files' path).get other = _
  rw [entriesOf_set h, Entries.get_insert]
  rfl

end File

/-- A set stores its value and leaves the other keys as they were. -/
def Lawful {σ : Type} (store : Store σ) : Prop :=
  ∀ ⦃s s' : σ⦄ ⦃key value : String⦄, (store.set key value).apply s = (.ok (), s') →
    ∀ other, store.get s' other = if key = other then value else store.get s other

theorem lawful_memory : memory.Lawful := by
  intro s s' key value h other
  cases h
  exact Entries.get_insert

theorem lawful_jsonFile (path : String) : (jsonFile path).Lawful :=
  fun _ _ _ _ h _ ↦ jsonFile_get_set h

/-- What is got is what was last set: a set that fails has set nothing. -/
structure Remembers {σ : Type} (store : Store σ) : Prop where
  lawful : store.Lawful
  kept :
    ∀ ⦃s s' : σ⦄ ⦃key value : String⦄ ⦃e : ClientError⦄,
      (store.set key value).apply s = (.error e, s') →
    ∀ other, store.get s' other = store.get s other

theorem remembers_memory : memory.Remembers where
  lawful := lawful_memory
  kept _ _ _ _ _ h := by cases h

def TakesAll {σ : Type} (store : Store σ) : Prop :=
  ∀ key value s, ∃ s', (store.set key value).apply s = (.ok (), s')

theorem takesAll_memory : memory.TakesAll := fun key value entries ↦ ⟨entries.insert key value, rfl⟩

theorem entriesOf_refused_set {files files' : FileTree} {path key value : String} {e : ClientError}
    (h : ((jsonFile path).set key value).apply files = (.error e, files')) :
    entriesOf files' path = entriesOf files path := by
  rcases Change.bind_apply_eq_error_iff.1 h with hget | ⟨_, _, hget, h⟩
  · cases hget
  cases hget
  obtain ⟨_, hsave, -⟩ := Change.adapt_apply_eq_error_iff.1 h
  have hread (text : String) : files'.readText path = .ok text ↔ files.readText path = .ok text :=
    FileTree.readText_of_refused_save hsave
  unfold entriesOf
  cases htext : files.readText path with
  | ok text => rw [(hread text).2 htext]
  | error =>
    cases htext' : files'.readText path with
    | ok text => cases htext.symm.trans ((hread text).1 htext')
    | error => rfl

theorem remembers_jsonFile (path : String) : (jsonFile path).Remembers where
  lawful := lawful_jsonFile path
  kept _ _ _ _ _ h _ := congrArg (Entries.get · _) (entriesOf_refused_set h)

inductive Call where
  | get (key value : String)
  | set (key value : String)

variable {ι σ : Type}

/-- Complete calls through some handles, one after the other. -/
inductive Calls (handles : ι → Store σ) (s : σ) : List (ι × Call) → σ → Prop
  | start : Calls handles s [] s
  | get {log : List (ι × Call)} {s' : σ} (h : Calls handles s log s') (i : ι) (key : String) :
      Calls handles s (log ++ [(i, .get key ((handles i).get s' key))]) s'
  | set {log : List (ι × Call)} {s' s'' : σ} (h : Calls handles s log s') {i : ι}
      {key value : String}
      (hset : ((handles i).set key value).apply s' = (.ok (), s'')) :
      Calls handles s (log ++ [(i, .set key value)]) s''

def Call.setting? : Call → Option (String × String)
  | .get _ _ => none
  | .set key value => some (key, value)

def lastSet? (key : String) (log : List (ι × Call)) : Option String :=
  (log.filterMap fun entry ↦ entry.2.setting?).reverse.lookup key

section Calls

variable {handles : ι → Store FileTree} {files files' : FileTree} {path key value other : String}
  {log before after : List (ι × Call)} {i : ι}

theorem lastSet?_get : lastSet? other (log ++ [(i, .get key value)]) = lastSet? other log := by
  simp [lastSet?, Call.setting?]

theorem lastSet?_set :
    lastSet? other (log ++ [(i, .set key value)]) = if key = other then some value
      else lastSet? other log := by
  rw [lastSet?, List.filterMap_append]
  exact lookup_reverse_concat key other value _

theorem Calls.get_eq (h : Calls (fun _ ↦ jsonFile path) files log files') (other : String) :
    (jsonFile path).get files' other = (lastSet? other log).getD (held files path other) := by
  induction h with
  | start => exact jsonFile_get
  | get _ i key ih => rw [lastSet?_get, ih]
  | @set log _ _ _ i key value hset ih =>
    rw [jsonFile_get_set hset, lastSet?_set, ih]
    by_cases h : key = other <;> simp [h]

/-- What memory that holds the same answers to the same calls. -/
theorem Calls.memory (h : Calls (fun _ ↦ jsonFile path) files log files') {entries : Entries}
    (hentries : ∀ key, entries.get key = held files path key) :
    ∃ entries', Calls (fun _ ↦ Store.memory) entries log entries' ∧
      ∀ key, entries'.get key = (jsonFile path).get files' key := by
  induction h with
  | start => exact ⟨entries, .start, fun key ↦ (hentries key).trans jsonFile_get.symm⟩
  | get _ i key ih =>
    obtain ⟨entries', hcalls, hget⟩ := ih
    refine ⟨entries', ?_, hget⟩
    rw [← hget key]
    exact hcalls.get i key
  | @set _ _ _ _ i key value hset ih =>
    obtain ⟨entries', hcalls, hget⟩ := ih
    refine ⟨entries'.insert key value, hcalls.set rfl, fun other ↦ ?_⟩
    rw [Entries.get_insert, jsonFile_get_set hset, hget]

theorem Calls.exists_of_get {σ : Type} {handles : ι → Store σ} {s s' : σ}
    (h : Calls handles s log s') (hlog : log = before ++ (i, .get key value) :: after) :
    ∃ t, Calls handles s before t ∧ (handles i).get t key = value := by
  have hlast {log : List (ι × Call)} {last : ι × Call} {after : List (ι × Call)}
      (h : log ++ [last] = before ++ (i, .get key value) :: after) :
      log = before ∧ last = (i, .get key value) ∨
          ∃ after', log = before ++ (i, .get key value) :: after' := by
    rcases List.eq_nil_or_concat after with rfl | ⟨after, _, rfl⟩
    · exact .inl (List.append_singleton_inj.1 h)
    · rw [List.concat_eq_append, ← List.cons_append, ← List.append_assoc] at h
      exact .inr ⟨after, (List.append_singleton_inj.1 h).1⟩
  induction h generalizing after with
  | start => cases before <;> cases hlog
  | get h j key' ih =>
    rcases hlast hlog with ⟨rfl, heq⟩ | ⟨after', hlog⟩
    · cases heq
      exact ⟨_, h, rfl⟩
    · exact ih hlog
  | set _ _ ih =>
    rcases hlast hlog with ⟨-, heq⟩ | ⟨after', hlog⟩
    · cases heq
    · exact ih hlog

end Calls

/-- A store in a file answers any calls, through any handles, with the value that was last set, or
else with what the file held at the beginning, and so as a store in memory does that held the same.
To set one key changes no other. -/
theorem jsonFile_calls {ι : Type} {handles : ι → Store FileTree} {files files' : FileTree}
    {path : String} {log : List (ι × Call)} (hhandles : ∀ i, handles i = jsonFile path)
    (h : Calls handles files log files') :
    (∀ before i key value after, log = before ++ (i, .get key value) :: after →
      value = (lastSet? key before).getD (held files path key)) ∧
    (∀ entries : Entries, (∀ key, Store.memory.get entries key = held files path key) →
      ∃ entries', Calls (fun _ ↦ Store.memory) entries log entries') ∧
    ∀ i key value files'', ((handles i).set key value).apply files' = (.ok (), files'') →
      ∀ j other, other ≠ key → (handles j).get files'' other = (handles j).get files' other := by
  obtain rfl : handles = fun _ ↦ jsonFile path := funext hhandles
  refine ⟨fun before i key value after hlog ↦ ?_, fun entries hentries ↦ ?_, ?_⟩
  · obtain ⟨t, hcalls, rfl⟩ := h.exists_of_get hlog
    exact hcalls.get_eq key
  · obtain ⟨entries', hcalls, -⟩ := h.memory hentries
    exact ⟨entries', hcalls⟩
  · intro i key value files'' hset j other hne
    exact (jsonFile_get_set hset).trans (if_neg hne.symm)

/-- A file that is not even UTF-8 is written over through one handle and read through another, from
a directory beside the one that holds it. -/
theorem jsonFile_calls_foreign :
    let foreign : FileTree.Entry := .file [0xFF] FileTree.defaultMode
    let root : FileTree.Entry :=
      .directory [("home", .directory [("c.json", foreign)]), ("work", .directory [])]
    let text : String := "\"\\\n\u0001😀"
    ∃ files' value, Calls (fun _ : Bool ↦ jsonFile "/home/c.json") ⟨root, ["work"]⟩
      [(true, .get text ""), (true, .set text text), (false, .get text value)] files' ∧
      value = text := by
  intro foreign root text
  let store : Store FileTree := jsonFile "/home/c.json"
  let files : FileTree := ⟨root, ["work"]⟩
  have hget : store.get files text = "" := by decide +kernel
  have hset : ((store.set text text).apply files).1 = .ok () := by decide +kernel
  have hfirst : Calls (fun _ : Bool ↦ store) files [(true, .get text "")] files :=
    hget ▸ Calls.start.get true text
  have hsecond := (hfirst.set (i := true) (Prod.ext hset rfl)).get false text
  refine ⟨_, _, hsecond, ?_⟩
  have hvalue := (jsonFile_calls (fun _ ↦ rfl) hsecond).1
    [(true, .get text ""), (true, .set text text)] false text _ [] rfl
  have hlast : lastSet? text ([(true, Call.get text "")] ++ [(true, .set text text)]) = some text :=
    lastSet?_set.trans (if_pos rfl)
  rw [hvalue]
  exact congrArg (Option.getD · _) hlast

end ValidatorClient.Store
