import Mathlib.Data.Finset.Card
import ValidatorClient.Proofs.Codec.Exact
import ValidatorClient.Proofs.Occurrence

namespace ValidatorClient.Codec

namespace OrderedMap

variable {κ ν : Type} [DecidableEq κ] {m : OrderedMap κ ν} {key other : κ} {value old : ν}
  {before after : List (κ × ν)}

omit [DecidableEq κ] in
theorem exists_first_of_mem (h : key ∈ m.keys) :
    ∃ before old after, m.entries = before ++ (key, old) :: after ∧ key ∉ before.map (·.1) := by
  obtain ⟨seen, rest, hkeys, hseen⟩ := List.eq_append_cons_of_mem h
  obtain ⟨before, entries, hentries, rfl, hrest⟩ := List.map_eq_append_iff.1 hkeys
  obtain ⟨⟨k, old⟩, after, rfl, hk, -⟩ := List.map_eq_cons_iff.1 hrest
  cases hk
  exact ⟨before, old, after, hentries, hseen⟩

theorem find?_of_first (h : key ∉ before.map (·.1)) :
    (before ++ (key, old) :: after).find? (·.1 = key) = some (key, old) := by
  have hnone : before.find? (·.1 = key) = none := by
    rw [List.find?_eq_none]
    intro p hp heq
    exact h (List.mem_map.2 ⟨p, hp, of_decide_eq_true heq⟩)
  rw [List.find?_append, hnone]
  simp

theorem get?_of_first (h : key ∉ before.map (·.1)) :
    (OrderedMap.mk (before ++ (key, old) :: after)).get? key = some old := by
  rw [get?, find?_of_first h]
  rfl

theorem replaceOrAppend_of_first (h : key ∉ before.map (·.1)) :
    replaceOrAppend key value (before ++ (key, old) :: after) =
      before ++ (key, value) :: after := by
  induction before with
  | nil => exact if_pos rfl
  | cons entry before ih =>
    rw [List.map_cons, List.mem_cons, not_or] at h
    rw [List.cons_append, replaceOrAppend, if_neg (Ne.symm h.1), ih h.2, List.cons_append]

/-- All that an insertion does: the first entry of the key gets the value, or there is a new one at
the end. -/
theorem insert_cases (m : OrderedMap κ ν) (key : κ) (value : ν) :
    (∃ before old after, m.entries = before ++ (key, old) :: after ∧ key ∉ before.map (·.1) ∧
      m.insert key value = (some old, ⟨before ++ (key, value) :: after⟩)) ∨
    key ∉ m.keys ∧ m.insert key value = (none, ⟨m.entries ++ [(key, value)]⟩) := by
  by_cases h : key ∈ m.keys
  · obtain ⟨before, old, after, hentries, hbefore⟩ := exists_first_of_mem h
    obtain ⟨entries⟩ := m
    subst hentries
    refine .inl ⟨before, old, after, rfl, hbefore, ?_⟩
    rw [insert, get?_of_first hbefore, replaceOrAppend_of_first hbefore]
  · exact .inr ⟨h, insert_of_notMem h value⟩

theorem keys_insert :
    (m.insert key value).2.keys = if key ∈ m.keys then m.keys else m.keys ++ [key] := by
  rcases insert_cases m key value with ⟨before, old, after, hentries, -, hinsert⟩ | ⟨hkey, hinsert⟩
  · simp [keys, hinsert, hentries]
  · rw [hinsert, if_neg hkey]
    simp [keys]

theorem get?_insert :
    (m.insert key value).2.get? other = if other = key then some value else m.get? other := by
  rcases insert_cases m key value with
    ⟨before, old, after, hentries, hbefore, hinsert⟩ | ⟨hkey, hinsert⟩
  · rw [hinsert]
    by_cases h : other = key
    · rw [if_pos h, h, get?_of_first hbefore]
    · simp [get?, hentries, List.find?_append, Ne.symm h, h]
  · rw [hinsert]
    by_cases h : other = key
    · rw [if_pos h, h, get?_of_first hkey]
    · simp [get?, List.find?_append, Ne.symm h, h]

theorem getElem?_insert_iff {p : κ × ν} (hp : p.1 ≠ key) {i : Nat} :
    (m.insert key value).2.entries[i]? = some p ↔ m.entries[i]? = some p := by
  have hne (v : ν) : (key, v) ≠ p := fun h ↦ hp (congrArg Prod.fst h).symm
  rcases insert_cases m key value with ⟨before, old, after, hentries, -, hinsert⟩ | ⟨-, hinsert⟩
  · rw [hinsert, hentries, List.getElem?_append, List.getElem?_append]
    by_cases hi : i < before.length
    · rw [if_pos hi, if_pos hi]
    · cases i - before.length <;> simp [hi, hne]
  · rw [hinsert, List.getElem?_append]
    by_cases hi : i < m.entries.length
    · rw [if_pos hi]
    · cases i - m.entries.length <;> simp [hi, hne]

theorem firstRepeat_concat {seen ks : List κ} (hks : key ∉ ks) (hseen : key ∉ seen) :
    firstRepeat seen (ks ++ [key]) = firstRepeat seen ks := by
  induction ks generalizing seen with
  | nil => simp [firstRepeat, hseen]
  | cons k ks ih =>
    rw [List.mem_cons, not_or] at hks
    rw [List.cons_append, firstRepeat, firstRepeat, ih hks.2 (by simp [hks.1, hseen])]

theorem firstDuplicate_insert : (m.insert key value).2.firstDuplicate = m.firstDuplicate := by
  have hkeys (m : OrderedMap κ ν) : m.firstDuplicate = firstRepeat [] m.keys := rfl
  rw [hkeys, hkeys, keys_insert]
  by_cases h : key ∈ m.keys
  · rw [if_pos h]
  · rw [if_neg h, firstRepeat_concat h List.not_mem_nil]

/-- What one insertion answers and leaves behind, whatever the entries were before. -/
structure Inserts (m : OrderedMap κ ν) (key : κ) (value : ν) (answer : Option ν)
    (m' : OrderedMap κ ν) : Prop where
  answer_eq : answer = m.get? key
  get?_eq : ∀ other, m'.get? other = if other = key then some value else m.get? other
  place_iff : ∀ p : κ × ν, p.1 ≠ key → ∀ i : Nat, m'.entries[i]? = some p ↔ m.entries[i]? = some p
  first : ∀ before old after, m.entries = before ++ (key, old) :: after → key ∉ before.map (·.1) →
    answer = some old ∧ m'.entries = before ++ (key, value) :: after
  absent : key ∉ m.keys → answer = none ∧ m'.entries = m.entries ++ [(key, value)]
  keys_of_mem : key ∈ m.keys → m'.keys = m.keys
  firstDuplicate_eq : m'.firstDuplicate = m.firstDuplicate

theorem inserts_insert (m : OrderedMap κ ν) (key : κ) (value : ν) :
    m.Inserts key value (m.insert key value).1 (m.insert key value).2 where
  answer_eq := rfl
  get?_eq _ := get?_insert
  place_iff _ hp _ := getElem?_insert_iff hp
  first before old after hentries hbefore := by
    obtain ⟨entries⟩ := m
    subst hentries
    exact ⟨get?_of_first hbefore, replaceOrAppend_of_first hbefore⟩
  absent h := by rw [insert_of_notMem h]; exact ⟨rfl, rfl⟩
  keys_of_mem h := keys_insert.trans (if_pos h)
  firstDuplicate_eq := firstDuplicate_insert

def insertAll (m : OrderedMap κ ν) (log : List (κ × ν)) : OrderedMap κ ν :=
  log.foldl (fun m p ↦ (m.insert p.1 p.2).2) m

variable {log : List (κ × ν)}

theorem insertAll_concat (p : κ × ν) :
    m.insertAll (log ++ [p]) = ((m.insertAll log).insert p.1 p.2).2 := by
  rw [insertAll, List.foldl_append]
  rfl

theorem keys_insertAll (log : List (κ × ν)) :
    (empty.insertAll log : OrderedMap κ ν).keys = (log.map (·.1)).eraseDups := by
  induction log using List.reverseRecOn with
  | nil => rfl
  | append_singleton log p ih =>
    rw [insertAll_concat, keys_insert, ih, List.map_append, List.map_singleton, eraseDups_concat]
    simp only [List.mem_eraseDups]

theorem get?_insertAll (log : List (κ × ν)) (key : κ) :
    (empty.insertAll log : OrderedMap κ ν).get? key = log.reverse.lookup key := by
  induction log using List.reverseRecOn with
  | nil => rfl
  | append_singleton log p ih =>
    rw [insertAll_concat, get?_insert, ih, lookup_reverse_concat]
    simp only [eq_comm]

theorem nodup_keys_insertAll (log : List (κ × ν)) :
    (empty.insertAll log : OrderedMap κ ν).keys.Nodup := by
  rw [keys_insertAll]
  exact nodup_eraseDups _

theorem length_insertAll (log : List (κ × ν)) :
    (empty.insertAll log : OrderedMap κ ν).length = (log.map (·.1)).toFinset.card := by
  have hset : (empty.insertAll log : OrderedMap κ ν).keys.toFinset = (log.map (·.1)).toFinset := by
    ext key
    rw [keys_insertAll, List.mem_toFinset, List.mem_toFinset, List.mem_eraseDups]
  rw [← hset, List.toFinset_card_of_nodup (nodup_keys_insertAll log), keys, List.length_map]
  rfl

end OrderedMap

variable {κ ν : Type} [DecidableEq κ]

theorem Layout.exists_encode_map {key : Layout κ} {value : Layout ν} {m : OrderedMap κ ν}
    (hm : m.keys.Nodup) (hlength : m.length < 2 ^ 32)
    (hparts : ∀ p ∈ m.entries, (∃ bytes, key.encode p.1 = .ok bytes) ∧
      ∃ bytes, value.encode p.2 = .ok bytes) :
    ∃ bytes, (map key value).encode m = .ok bytes ∧ (map key value).decodeAll bytes = .ok m := by
  have hentries : ∃ chunks, m.entries.mapM (fun p ↦ (pair key value).encode p) = .ok chunks := by
    cases h : m.entries.mapM fun p ↦ (pair key value).encode p with
    | ok chunks => exact ⟨chunks, rfl⟩
    | error e =>
      obtain ⟨p, hp, he⟩ := Except.exists_of_mapM_eq_error h
      obtain ⟨⟨kbytes, hk⟩, vbytes, hv⟩ := hparts p hp
      rw [encode_pair, hk, hv] at he
      cases he
  obtain ⟨chunks, hchunks⟩ := hentries
  have hcount := encodeCount_eq_ok_iff.2 ⟨hlength, rfl⟩
  have hencode :
      (map key value).encode m = .ok (Bytes.littleEndian 4 m.length ++ chunks.flatten) := by
    rw [encode_map key value m (OrderedMap.firstDuplicate_eq_none_iff.2 hm), hcount, hchunks]
    rfl
  exact ⟨_, hencode, decodeAll_eq_ok_iff.2 hencode⟩

namespace OrderedMap

/-- Insertions into the empty map keep its keys distinct and in the order in which they came first,
each with the value that came last, so that the map can be written and read back. Any insertion,
also into a map with repeated keys, answers what its key had and changes the first entry of that key
alone, or adds one where there is none. -/
theorem insertAll_exact :
    (∀ log : List (κ × ν),
      let m : OrderedMap κ ν := empty.insertAll log
      m.keys.Nodup ∧ m.keys = (log.map (·.1)).eraseDups ∧ m.length = (log.map (·.1)).toFinset.card ∧
      (∀ key, m.get? key = log.reverse.lookup key) ∧ m.firstDuplicate = none ∧
      ∀ (key : Layout κ) (value : Layout ν), m.length < 2 ^ 32 →
        (∀ p ∈ m.entries, (∃ bytes, key.encode p.1 = .ok bytes) ∧
          ∃ bytes, value.encode p.2 = .ok bytes) →
        ∃ bytes, (Layout.map key value).encode m = .ok bytes ∧
          (Layout.map key value).decodeAll bytes = .ok m) ∧
    ∀ (m : OrderedMap κ ν) (key : κ) (value : ν),
      m.Inserts key value (m.insert key value).1 (m.insert key value).2 := by
  refine ⟨?_, inserts_insert⟩
  intro log m
  have hkeys := nodup_keys_insertAll log
  exact ⟨hkeys, keys_insertAll log, length_insertAll log, get?_insertAll log,
    firstDuplicate_eq_none_iff.2 hkeys,
    fun key value hlength hparts ↦ Layout.exists_encode_map hkeys hlength hparts⟩

theorem insertAll_exact_again :
    let m : OrderedMap UInt8 Bool := empty.insertAll [(9, true), (3, true), (9, false)]
    let repeated : OrderedMap UInt8 Bool := ⟨[(3, true), (9, true), (9, true)]⟩
    (∃ bytes, (Layout.map .u8 .bool).encode m = .ok bytes ∧
      (Layout.map .u8 .bool).decodeAll bytes = .ok m) ∧
      m.keys = [9, 3] ∧ m.get? 9 = some false ∧ m.length < 2 ^ 32 ∧
      (repeated.insert 9 false).2.entries = [(3, true), (9, false), (9, true)] ∧
      (repeated.insert 9 false).2.firstDuplicate = some 2 := by
  intro m repeated
  obtain ⟨hruns, hinserts⟩ := insertAll_exact (κ := UInt8) (ν := Bool)
  obtain ⟨-, hkeys, -, hget, -, hwritten⟩ := hruns [(9, true), (3, true), (9, false)]
  have hlength : m.length < 2 ^ 32 := by decide
  refine ⟨hwritten .u8 .bool hlength fun p _ ↦ ⟨⟨_, rfl⟩, _, rfl⟩, hkeys, hget 9, hlength, ?_, ?_⟩
  · exact ((hinserts repeated 9 false).first [(3, true)] true [(9, true)] rfl (by decide)).2
  · exact (hinserts repeated 9 false).firstDuplicate_eq

end OrderedMap

end ValidatorClient.Codec
