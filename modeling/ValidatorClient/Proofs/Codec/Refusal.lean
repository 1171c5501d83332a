import Mathlib.Tactic.Tauto
import ValidatorClient.Proofs.Codec.Exact

namespace ValidatorClient.Codec

open Text

variable {α β κ ν : Type}

/-- A part of a value that is written with a count in front. The keys of a map must be distinct
too. -/
inductive Part where
  | text (length : Nat)
  | list (length : Nat)
  | map {κ : Type} (keys : List κ)

/-- The key of the entry is among those seen before the list or is the key of an earlier entry. -/
def Repeats (seen keys : List κ) (index : Nat) : Prop :=
  ∃ key, keys[index]? = some key ∧ (key ∈ seen ∨ key ∈ keys.take index)

namespace Part

/-- There are too many items for a count of four bytes, or keys that are not distinct. -/
def IsFaulty : Part → Prop
  | text length => 2 ^ 32 - 1 < length
  | list length => 2 ^ 32 - 1 < length
  | map keys => ¬ keys.Nodup ∨ 2 ^ 32 - 1 < keys.length

/-- The error for a faulty part. A repeated key counts before the number of the entries. -/
inductive Fails : Part → Error → Prop
  | text {length : Nat} (h : 2 ^ 32 - 1 < length) : (text length).Fails (.lengthOverflow length)
  | list {length : Nat} (h : 2 ^ 32 - 1 < length) : (list length).Fails (.lengthOverflow length)
  | repeated {κ : Type} {keys : List κ} {index : Nat} (h : Repeats [] keys index)
      (hfirst : ∀ i < index, ¬ Repeats [] keys i) :
      (map keys).Fails (.duplicateKey index)
  | map {κ : Type} {keys : List κ} (hkeys : keys.Nodup) (h : 2 ^ 32 - 1 < keys.length) :
      (map keys).Fails (.lengthOverflow keys.length)

end Part

namespace OrderedMap

variable [DecidableEq κ] {m : OrderedMap κ ν} {seen seen' ks : List κ} {index : Nat}

theorem firstRepeat_congr (h : ∀ k, k ∈ seen ↔ k ∈ seen') :
    firstRepeat seen ks = firstRepeat seen' ks := by
  induction ks generalizing seen seen' with
  | nil => rfl
  | cons k ks ih =>
    have hcons : ∀ k', k' ∈ k :: seen ↔ k' ∈ k :: seen' := by
      intro k'
      rw [List.mem_cons, List.mem_cons, h]
    rw [firstRepeat, firstRepeat, ih hcons]
    simp only [h]

omit [DecidableEq κ] in
theorem repeats_zero_iff {k : κ} : Repeats seen (k :: ks) 0 ↔ k ∈ seen := by
  simp [Repeats]

omit [DecidableEq κ] in
theorem repeats_succ_iff {k : κ} :
    Repeats seen (k :: ks) (index + 1) ↔ Repeats (k :: seen) ks index := by
  simp [Repeats, or_left_comm, or_assoc]

theorem firstRepeat_eq_some_iff :
    firstRepeat seen ks = some index ↔
      Repeats seen ks index ∧ ∀ i < index, ¬ Repeats seen ks i := by
  induction ks generalizing seen index with
  | nil => simp [firstRepeat, Repeats]
  | cons k ks ih =>
    rw [firstRepeat]
    cases index with
    | zero => by_cases hk : k ∈ seen <;> simp [hk, repeats_zero_iff]
    | succ index =>
      rw [Nat.forall_lt_succ_left, repeats_zero_iff, repeats_succ_iff]
      by_cases hk : k ∈ seen
      · simp [hk]
      · simp [hk, ih, repeats_succ_iff]

theorem firstDuplicate_eq_some_iff :
    m.firstDuplicate = some index ↔ Repeats [] m.keys index ∧ ∀ i < index, ¬ Repeats [] m.keys i :=
  firstRepeat_eq_some_iff

end OrderedMap

theorem Repeats.not_nodup {keys : List κ} {index : Nat} (h : Repeats [] keys index) :
    ¬ keys.Nodup := by
  intro hkeys
  obtain ⟨key, hkey, hmem⟩ := h
  have hdrop : (keys.drop index)[0]? = some key := by rw [List.getElem?_drop, Nat.add_zero, hkey]
  exact List.disjoint_take_drop hkeys (Nat.le_refl _) (hmem.resolve_left List.not_mem_nil)
    (List.mem_of_getElem? hdrop)

def FirstFails (parts : List Part) (e : Error) : Prop :=
  ∃ before part after, parts = before ++ part :: after ∧ (∀ p ∈ before, ¬ p.IsFaulty) ∧ part.Fails e

section Parts

variable {part : Part} {parts more : List Part} {e : Error}

theorem Part.Fails.isFaulty (h : part.Fails e) : part.IsFaulty := by
  cases h with
  | text h => exact h
  | list h => exact h
  | repeated h _ => exact .inl h.not_nodup
  | map _ h => exact .inr h

theorem Part.Fails.unique {e' : Error} (h : part.Fails e) (h' : part.Fails e') : e = e' := by
  cases h with
  | text _ => cases h'; rfl
  | list _ => cases h'; rfl
  | @repeated _ _ index hindex hfirst =>
    cases h' with
    | @repeated _ _ index' hindex' hfirst' =>
      rcases Nat.lt_trichotomy index index' with hlt | rfl | hlt
      · exact absurd hindex (hfirst' index hlt)
      · rfl
      · exact absurd hindex' (hfirst index' hlt)
    | map hkeys _ => exact absurd hkeys hindex.not_nodup
  | map hkeys _ =>
    cases h' with
    | repeated hindex _ => exact absurd hkeys hindex.not_nodup
    | map _ _ => rfl

theorem Part.IsFaulty.exists_fails (h : part.IsFaulty) : ∃ e, part.Fails e := by
  cases part with
  | text length => exact ⟨_, .text h⟩
  | list length => exact ⟨_, .list h⟩
  | @map κ keys =>
    by_cases hkeys : keys.Nodup
    · exact ⟨_, .map hkeys (h.resolve_left (not_not_intro hkeys))⟩
    · classical
      cases hfirst : OrderedMap.firstRepeat [] keys with
      | none => exact absurd (OrderedMap.firstRepeat_eq_none_iff.1 hfirst).1 hkeys
      | some index =>
        obtain ⟨hrepeats, hleast⟩ := OrderedMap.firstRepeat_eq_some_iff.1 hfirst
        exact ⟨_, .repeated hrepeats hleast⟩

theorem not_firstFails_nil : ¬ FirstFails [] e := by
  intro h
  obtain ⟨before, part, after, hparts, -⟩ := h
  cases before <;> cases hparts

theorem firstFails_cons_iff :
    FirstFails (part :: parts) e ↔ part.Fails e ∨ ¬ part.IsFaulty ∧ FirstFails parts e := by
  constructor
  · intro h
    obtain ⟨before, first, after, hparts, hbefore, hfirst⟩ := h
    cases before with
    | nil =>
      cases hparts
      exact .inl hfirst
    | cons p before =>
      cases hparts
      rw [List.forall_mem_cons] at hbefore
      exact .inr ⟨hbefore.1, before, first, after, rfl, hbefore.2, hfirst⟩
  · intro h
    rcases h with h | ⟨hpart, before, first, after, rfl, hbefore, hfirst⟩
    · exact ⟨[], part, parts, rfl, by simp, h⟩
    · exact ⟨part :: before, first, after, rfl, List.forall_mem_cons.2 ⟨hpart, hbefore⟩, hfirst⟩

theorem firstFails_append_iff :
    FirstFails (parts ++ more) e ↔
      FirstFails parts e ∨ (∀ p ∈ parts, ¬ p.IsFaulty) ∧ FirstFails more e := by
  induction parts with
  | nil => simp [not_firstFails_nil]
  | cons part parts ih =>
    rw [List.cons_append, firstFails_cons_iff, firstFails_cons_iff, ih, List.forall_mem_cons]
    tauto

theorem exists_firstFails_iff : (∃ e, FirstFails parts e) ↔ ∃ p ∈ parts, p.IsFaulty := by
  induction parts with
  | nil => simp [not_firstFails_nil]
  | cons part parts ih =>
    simp only [firstFails_cons_iff, List.mem_cons, exists_eq_or_imp, ← ih]
    constructor
    · intro h
      obtain ⟨e, h | h⟩ := h
      · exact .inl h.isFaulty
      · exact .inr ⟨e, h.2⟩
    · intro h
      by_cases hpart : part.IsFaulty
      · obtain ⟨e, he⟩ := hpart.exists_fails
        exact ⟨e, .inl he⟩
      · obtain ⟨e, he⟩ := h.resolve_left hpart
        exact ⟨e, .inr ⟨hpart, he⟩⟩

end Parts

/-- The outcome is decided by the parts: an error is that of the first faulty one. -/
def Refuses (outcome : Except Error α) (parts : List Part) : Prop :=
  ∀ e, outcome = .error e ↔ FirstFails parts e

section Refuses

variable {x : Except Error α} {parts more : List Part} {n : Nat}

theorem refuses_ok (a : α) : Refuses (.ok a) [] :=
  fun _ ↦ ⟨nofun, fun h ↦ absurd h not_firstFails_nil⟩

theorem refuses_error {part : Part} {e : Error} (h : part.Fails e) (parts : List Part) :
    Refuses (.error e : Except Error α) (part :: parts) := by
  intro e'
  rw [firstFails_cons_iff]
  constructor
  · intro he
    cases he
    exact .inl h
  · intro he
    rcases he with he | ⟨hpart, -⟩
    · rw [h.unique he]
    · exact absurd h.isFaulty hpart

theorem Refuses.exists_ok_iff (h : Refuses x parts) :
    (∃ a, x = .ok a) ↔ ∀ p ∈ parts, ¬ p.IsFaulty := by
  have herror : (∃ e, x = .error e) ↔ ∃ p ∈ parts, p.IsFaulty := by
    rw [← exists_firstFails_iff]
    exact exists_congr h
  have hok : (∃ a, x = .ok a) ↔ ¬ ∃ e, x = .error e := by cases x <;> simp
  rw [hok, herror]
  simp

theorem Refuses.bind {f : α → Except Error β} (h : Refuses x parts) (hf : ∀ a, Refuses (f a) more) :
    Refuses (x >>= f) (parts ++ more) := by
  intro e
  rw [Except.bind_eq_error_iff, firstFails_append_iff, h e, ← h.exists_ok_iff]
  simp only [hf _ e, exists_and_right]

theorem Refuses.map {f : α → β} (h : Refuses x parts) : Refuses (f <$> x) parts := by
  rw [map_eq_pure_bind, ← List.append_nil parts]
  exact h.bind fun a ↦ refuses_ok (f a)

theorem Refuses.append {x y : Except Error Bytes} (hx : Refuses x parts) (hy : Refuses y more) :
    Refuses (do return (← x) ++ (← y)) (parts ++ more) :=
  hx.bind fun _ ↦ hy.map

theorem Refuses.mapM {f : α → Except Error β} {parts : α → List Part}
    (h : ∀ a, Refuses (f a) (parts a)) (as : List α) : Refuses (as.mapM f) (as.flatMap parts) := by
  induction as with
  | nil => exact refuses_ok []
  | cons a as ih =>
    rw [List.mapM_cons, List.flatMap_cons]
    exact (h a).bind fun b ↦ ih.map

theorem encodeCount_eq_error_iff {e : Error} :
    encodeCount n = .error e ↔ 2 ^ 32 - 1 < n ∧ .lengthOverflow n = e := by
  unfold encodeCount Write.count
  split
  · rename_i h
    simp [Write.output_push]
    omega
  · rename_i h
    simp [Write.output, Write.fail, Change.apply, ExceptT.run]
    omega

theorem refuses_count {part : Part}
    (h : ∀ e, part.Fails e ↔ 2 ^ 32 - 1 < n ∧ .lengthOverflow n = e) :
    Refuses (encodeCount n) [part] := by
  intro e
  rw [encodeCount_eq_error_iff, firstFails_cons_iff, h]
  simp [not_firstFails_nil]

theorem refuses_text (n : Nat) : Refuses (encodeCount n) [.text n] :=
  refuses_count fun e ↦
    ⟨fun h ↦ by cases h with | text h => exact ⟨h, rfl⟩, fun h ↦ h.2 ▸ .text h.1⟩

theorem refuses_list (n : Nat) : Refuses (encodeCount n) [.list n] :=
  refuses_count fun e ↦
    ⟨fun h ↦ by cases h with | list h => exact ⟨h, rfl⟩, fun h ↦ h.2 ▸ .list h.1⟩

theorem refuses_map {keys : List κ} (hkeys : keys.Nodup) :
    Refuses (encodeCount keys.length) [.map keys] := by
  refine refuses_count fun e ↦ ⟨fun h ↦ ?_, fun h ↦ h.2 ▸ .map hkeys h.1⟩
  cases h with
  | repeated h _ => exact absurd hkeys h.not_nodup
  | map _ h => exact ⟨h, rfl⟩

end Refuses

namespace Layout

/-- The parts of a value in the order in which they are written, each before what it contains. -/
def parts : {α : Type} → Layout α → α → List Part
  | _, string, s => [.text (Utf8.encode s).length]
  | _, option _, none => []
  | _, option value, some a => value.parts a
  | _, vec item, as => .list as.length :: as.flatMap item.parts
  | _, map key value, m =>
    .map m.keys :: m.entries.flatMap fun (k, v) ↦ key.parts k ++ value.parts v
  | _, pair first second, (a, b) => first.parts a ++ second.parts b
  | _, union _ _ payload, ⟨i, a⟩ => (payload i).parts a
  | _, via e layout, b => layout.parts (e.back b)
  | _, u8, _ => []
  | _, u16, _ => []
  | _, u32, _ => []
  | _, u64, _ => []
  | _, bool, _ => []
  | _, bytes _, _ => []

theorem refuses_encode (layout : Layout α) (a : α) :
    Refuses (layout.encode a) (layout.parts a) := by
  induction layout with
  | u8 | u16 | u32 | u64 | bool | bytes n => exact refuses_ok _
  | string =>
    rw [encode_string]
    exact (refuses_text _).map
  | option value ih =>
    cases a with
    | none => exact refuses_ok _
    | some a =>
      rw [encode_some]
      exact (ih a).map
  | vec item ih =>
    rw [encode_vec]
    exact (refuses_list _).append (Refuses.mapM ih a).map
  | map key value ihk ihv =>
    cases hd : a.firstDuplicate with
    | some index =>
      obtain ⟨hindex, hfirst⟩ := OrderedMap.firstDuplicate_eq_some_iff.1 hd
      rw [encode_map_of_duplicate key value a hd]
      exact refuses_error (.repeated hindex hfirst) _
    | none =>
      have hpair (p : _ × _) :
          Refuses ((pair key value).encode p) (key.parts p.1 ++ value.parts p.2) := by
        rw [encode_pair]
        exact (ihk p.1).append (ihv p.2)
      have hcount := refuses_map (OrderedMap.firstDuplicate_eq_none_iff.1 hd)
      rw [OrderedMap.keys, List.length_map] at hcount
      rw [encode_map key value a hd]
      exact hcount.append (Refuses.mapM hpair a.entries).map
  | pair first second ih₁ ih₂ =>
    rw [encode_pair]
    exact (ih₁ a.1).append (ih₂ a.2)
  | union name n_lt payload ih =>
    rw [encode_union]
    exact (ih a.1 a.2).map
  | via e layout ih => exact ih (e.back a)

end Layout

section Reading

variable [DecidableEq κ] {key : Read κ} {value : Read ν} {encode : κ × ν → Except Error Bytes}
  {entries : List (κ × ν)} {chunks : List Bytes} {m : OrderedMap κ ν} {index i : Nat} {r s : Reader}

theorem Exact.fillMap_of_repeat (h : Exact (do return (← key, ← value)) encode)
    (hchunks : entries.mapM encode = .ok chunks) (hr : r.Passes chunks.flatten s)
    (hrepeat : OrderedMap.firstRepeat m.keys (entries.map (·.1)) = some i) :
    ∃ r', Codec.fillMap key value entries.length index m r =
      (.error (.duplicateKey (index + i)), r') := by
  induction entries generalizing index m r i chunks with
  | nil => cases hrepeat
  | cons p entries ih =>
    obtain ⟨bytes, chunks, hbytes, hall, rfl⟩ :=
      List.forall₂_cons_left_iff.1 (Except.mapM_eq_ok_iff.1 hchunks)
    obtain ⟨t, hp, hr⟩ := Reader.passes_append_iff.1 hr
    have hread := (h r p t).2 ⟨bytes, hbytes, hp⟩
    rw [List.map_cons, OrderedMap.firstRepeat] at hrepeat
    rw [List.length_cons, fillMap_succ, Read.bind_of_ok hread]
    by_cases hmem : p.1 ∈ m.keys
    · rw [if_pos hmem] at hrepeat ⊢
      cases hrepeat
      exact ⟨t, rfl⟩
    · rw [if_neg hmem] at hrepeat ⊢
      obtain ⟨j, hj, rfl⟩ := Option.map_eq_some_iff.1 hrepeat
      have hkeys : ∀ k, k ∈ p.1 :: m.keys ↔ k ∈ (OrderedMap.mk (m.entries ++ [p])).keys := by
        intro k
        simp [OrderedMap.keys, or_comm]
      rw [OrderedMap.firstRepeat_congr hkeys] at hj
      obtain ⟨r', hr'⟩ := ih (Except.mapM_eq_ok_iff.2 hall) hr hj
      exact ⟨r', by rw [hr', Nat.add_assoc, Nat.add_comm 1]⟩

end Reading

namespace Layout

variable [DecidableEq κ] {key : Layout κ} {value : Layout ν} {entries : List (κ × ν)}
  {chunks : List Bytes}

theorem encode_entries (hlength : entries.length < 2 ^ 32)
    (hchunks : entries.mapM (pair key value).encode = .ok chunks)
    (hd : (OrderedMap.mk entries).firstDuplicate = none) :
    (map key value).encode ⟨entries⟩ =
      .ok (Bytes.littleEndian 4 entries.length ++ chunks.flatten) := by
  rw [encode_map key value _ hd]
  exact append_eq_ok_iff.2 ⟨_, _, encodeCount_eq_ok_iff.2 ⟨hlength, rfl⟩,
    Except.map_eq_ok_iff.2 ⟨chunks, hchunks, rfl⟩, rfl⟩

theorem decodeFront_entries_of_duplicate (hlength : entries.length < 2 ^ 32)
    (hchunks : entries.mapM (pair key value).encode = .ok chunks) {index : Nat}
    (hd : (OrderedMap.mk entries).firstDuplicate = some index) (tail : Bytes) :
    (map key value).decodeFront (Bytes.littleEndian 4 entries.length ++ chunks.flatten ++ tail) =
      .error (.duplicateKey index) := by
  have hpair : Exact (do return (← key.decode, ← value.decode)) (pair key value).encode :=
    exact_pair (exact_decode key) (exact_decode value)
  let r : Reader := ⟨4, chunks.flatten ++ tail⟩
  have hr : r.Passes chunks.flatten ⟨4 + chunks.flatten.length, tail⟩ := ⟨rfl, rfl⟩
  have hcount :
      Read.count (Reader.start (Bytes.littleEndian 4 entries.length ++ chunks.flatten ++ tail)) =
      (.ok entries.length, r) := by
    refine (exact_count _ _ _).2 ⟨_, encodeCount_eq_ok_iff.2 ⟨hlength, rfl⟩, ?_⟩
    exact Reader.passes_start_iff.2 ⟨List.append_assoc _ _ _, (Bytes.length_littleEndian _ _).symm⟩
  have hensure : Read.ensure (entries.length * (key.minLength + value.minLength)) r = (.ok (), r) :=
    Read.ensure_eq_ok_iff.2 ⟨Nat.le_trans
      (length_flatten_of_mapM (fun _ _ ↦ (pair key value).minLength_le) hchunks) hr.length_le, rfl⟩
  obtain ⟨r', hfill⟩ : ∃ r', fillMap key.decode value.decode entries.length 0 .empty r =
      (.error (.duplicateKey (0 + index)), r') := hpair.fillMap_of_repeat hchunks hr hd
  rw [decodeFront, decode_map, Read.bind_of_ok hcount, Read.bind_of_ok hensure, hfill, Nat.zero_add]

/-- A value is refused if a text, a list or a map in it has too many items for its count, or a map
repeats a key, and with the error of the first of these parts. What the writer of a map refuses for
a repeated key the reader refuses for the same entry, and nothing else. -/
theorem refusal_exact :
    (∀ (α : Type) (layout : Layout α) (a : α),
      ((∃ e, layout.encode a = .error e) ↔ ∃ part ∈ layout.parts a, part.IsFaulty) ∧
      ∀ e, layout.encode a = .error e ↔ FirstFails (layout.parts a) e) ∧
    ∀ (κ ν : Type) [DecidableEq κ] (key : Layout κ) (value : Layout ν) (entries : List (κ × ν))
      (chunks : List Bytes),
      entries.mapM (pair key value).encode = .ok chunks → entries.length < 2 ^ 32 →
      let input := Bytes.littleEndian 4 entries.length ++ chunks.flatten
      ∀ tail,
        (∀ i, (map key value).encode ⟨entries⟩ = .error (.duplicateKey i) ↔
          (map key value).decodeFront (input ++ tail) = .error (.duplicateKey i)) ∧
        ((∀ i, (map key value).encode ⟨entries⟩ ≠ .error (.duplicateKey i)) →
          (map key value).encode ⟨entries⟩ = .ok input ∧
          (map key value).decodeFront (input ++ tail) = .ok (⟨entries⟩, input.length)) := by
  refine ⟨fun α layout a ↦ ⟨?_, layout.refuses_encode a⟩, ?_⟩
  · rw [← exists_firstFails_iff]
    exact exists_congr (layout.refuses_encode a)
  · intro κ ν _ key value entries chunks hchunks hlength input tail
    cases hd : (OrderedMap.mk entries).firstDuplicate with
    | some index =>
      rw [encode_map_of_duplicate key value _ hd,
        decodeFront_entries_of_duplicate hlength hchunks hd tail]
      exact ⟨fun i ↦ by simp, fun h ↦ absurd rfl (h index)⟩
    | none =>
      have hencode := encode_entries hlength hchunks hd
      have hfront : (map key value).decodeFront (input ++ tail) = .ok (⟨entries⟩, input.length) :=
        decodeFront_eq_ok_iff.2 ⟨input, tail, hencode, rfl, rfl⟩
      rw [hencode, hfront]
      exact ⟨fun i ↦ by simp, fun _ ↦ ⟨rfl, rfl⟩⟩

theorem refusal_exact_repeatedKey :
    let entries : List (UInt8 × Bool) := [(1, true), (2, false), (1, false), (2, true)]
    let layout := Layout.pair .string (.map .u8 .bool)
    layout.encode ("é", ⟨entries⟩) = .error (.duplicateKey 2) ∧
      (∃ part ∈ layout.parts ("é", ⟨entries⟩), part.IsFaulty) ∧
      entries.mapM (Layout.pair .u8 .bool).encode = .ok [[1, 1], [2, 0], [1, 0], [2, 1]] ∧
        entries.length < 2 ^ 32 ∧
      (Layout.map .u8 .bool).decodeFront [4, 0, 0, 0, 1, 1, 2, 0, 1, 0, 2, 1, 7] =
          .error (.duplicateKey 2) := by
  intro entries layout
  obtain ⟨hwrite, hread⟩ := refusal_exact
  have hchunks :
    entries.mapM (Layout.pair .u8 .bool).encode = .ok [[1, 1], [2, 0], [1, 0], [2, 1]] := rfl
  have hlength : entries.length < 2 ^ 32 := by decide
  have hencode : layout.encode ("é", ⟨entries⟩) = .error (.duplicateKey 2) := by
    refine ((hwrite _ layout ("é", ⟨entries⟩)).2 _).2
      ⟨[.text 2], .map [1, 2, 1, 2], [], rfl, ?_, ?_⟩
    · simp [Part.IsFaulty]
    · obtain ⟨hrepeats, hfirst⟩ := OrderedMap.firstDuplicate_eq_some_iff.1
        (rfl : (OrderedMap.mk entries).firstDuplicate = some 2)
      exact .repeated hrepeats hfirst
  have hinput :
      Bytes.littleEndian 4 entries.length ++ [[1, 1], [2, 0], [1, 0], [2, 1]].flatten ++ [7] =
      [4, 0, 0, 0, 1, 1, 2, 0, 1, 0, 2, 1, 7] := by decide
  have hfront := ((hread _ _ .u8 .bool entries _ hchunks hlength [7]).1 2).1 rfl
  rw [hinput] at hfront
  exact ⟨hencode, (hwrite _ layout ("é", ⟨entries⟩)).1.1 ⟨_, hencode⟩, hchunks, hlength, hfront⟩

end Layout

end ValidatorClient.Codec
