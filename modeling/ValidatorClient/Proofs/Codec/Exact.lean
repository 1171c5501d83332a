import ValidatorClient.Program.Account
import ValidatorClient.Proofs.Codec.OrderedMap
import ValidatorClient.Proofs.Codec.Reading
import ValidatorClient.Proofs.Codec.Writing
import ValidatorClient.Proofs.Text.Utf8

namespace ValidatorClient.Codec

open Text

variable {α β κ ν : Type}

/-- A value is read where its encoding stands and nowhere else, and nothing past the encoding is
taken. -/
def Exact (read : Read α) (encode : α → Except Error Bytes) : Prop :=
  ∀ r a r', read r = (.ok a, r') ↔ ∃ bytes, encode a = .ok bytes ∧ r.Passes bytes r'

theorem append_eq_ok_iff {x y : Except Error Bytes} {bytes : Bytes} :
    (do return (← x) ++ (← y)) = .ok bytes ↔
      ∃ b₁ b₂, x = .ok b₁ ∧ y = .ok b₂ ∧ bytes = b₁ ++ b₂ := by
  rw [Except.bind_eq_ok_iff]
  constructor
  · intro h
    obtain ⟨b₁, h₁, h⟩ := h
    obtain ⟨b₂, h₂, h⟩ := Except.bind_eq_ok_iff.1 h
    cases h
    exact ⟨b₁, b₂, h₁, h₂, rfl⟩
  · intro h
    obtain ⟨b₁, b₂, h₁, h₂, rfl⟩ := h
    exact ⟨b₁, h₁, Except.bind_eq_ok_iff.2 ⟨b₂, h₂, rfl⟩⟩

theorem cons_eq_ok_iff {b : UInt8} {x : Except Error Bytes} {bytes : Bytes} :
    (do return b :: (← x)) = .ok bytes ↔ ∃ rest, x = .ok rest ∧ bytes = b :: rest := by
  rw [Except.bind_eq_ok_iff]
  constructor
  · intro h
    obtain ⟨rest, h, h'⟩ := h
    cases h'
    exact ⟨rest, h, rfl⟩
  · intro h
    obtain ⟨rest, h, rfl⟩ := h
    exact ⟨rest, h, rfl⟩

theorem exact_count : Exact Read.count encodeCount := by
  intro r n r'
  rw [Read.count, Read.word_eq_ok_iff]
  constructor
  · intro h
    obtain ⟨hn, hp⟩ := h
    exact ⟨_, encodeCount_eq_ok_iff.2 ⟨hn, rfl⟩, hp⟩
  · intro h
    obtain ⟨bytes, h, hp⟩ := h
    obtain ⟨hn, rfl⟩ := encodeCount_eq_ok_iff.1 h
    exact ⟨hn, hp⟩

theorem Exact.pair {read₁ : Read α} {read₂ : Read β} {encode₁ : α → Except Error Bytes}
    {encode₂ : β → Except Error Bytes} (h₁ : Exact read₁ encode₁) (h₂ : Exact read₂ encode₂) :
    Exact (do return (← read₁, ← read₂)) fun p ↦ do return (← encode₁ p.1) ++ (← encode₂ p.2) := by
  intro r p r'
  obtain ⟨a, b⟩ := p
  rw [Read.bind_eq_ok_iff]
  constructor
  · intro hread
    obtain ⟨a', s, ha, h⟩ := hread
    obtain ⟨b', s', hb, h⟩ := Read.bind_eq_ok_iff.1 h
    obtain ⟨h, rfl⟩ := Read.pure_eq_ok_iff.1 h
    cases h
    obtain ⟨bytes₁, he₁, hp₁⟩ := (h₁ _ _ _).1 ha
    obtain ⟨bytes₂, he₂, hp₂⟩ := (h₂ _ _ _).1 hb
    exact ⟨_, append_eq_ok_iff.2 ⟨_, _, he₁, he₂, rfl⟩, Reader.passes_append_iff.2 ⟨s, hp₁, hp₂⟩⟩
  · intro hwritten
    obtain ⟨bytes, he, hp⟩ := hwritten
    obtain ⟨bytes₁, bytes₂, he₁, he₂, rfl⟩ := append_eq_ok_iff.1 he
    obtain ⟨s, hp₁, hp₂⟩ := Reader.passes_append_iff.1 hp
    exact ⟨a, s, (h₁ _ _ _).2 ⟨_, he₁, hp₁⟩, Read.bind_eq_ok_iff.2
      ⟨b, r', (h₂ _ _ _).2 ⟨_, he₂, hp₂⟩, rfl⟩⟩

theorem Exact.times {read : Read α} {encode : α → Except Error Bytes} (h : Exact read encode)
    {n : Nat} {r r' : Reader} {as : List α} :
    Read.times read n r = (.ok as, r') ↔ as.length = n ∧
      ∃ chunks, as.mapM encode = .ok chunks ∧ r.Passes chunks.flatten r' := by
  induction n generalizing r as with
  | zero =>
    rw [Read.times, Read.pure_eq_ok_iff]
    constructor
    · intro hread
      obtain ⟨rfl, hr⟩ := hread
      exact ⟨rfl, [], rfl, Reader.passes_nil_iff.2 hr⟩
    · intro hwritten
      obtain ⟨hl, chunks, hm, hp⟩ := hwritten
      cases List.eq_nil_of_length_eq_zero hl
      cases hm
      exact ⟨rfl, Reader.passes_nil_iff.1 hp⟩
  | succ n ih =>
    rw [Read.times, Read.bind_eq_ok_iff]
    constructor
    · intro hread
      obtain ⟨a, s, ha, ht⟩ := hread
      obtain ⟨as', s', hs, ht⟩ := Read.bind_eq_ok_iff.1 ht
      obtain ⟨rfl, rfl⟩ := Read.pure_eq_ok_iff.1 ht
      obtain ⟨bytes, he, hp⟩ := (h _ _ _).1 ha
      obtain ⟨rfl, chunks, hm, hps⟩ := ih.1 hs
      refine ⟨rfl, bytes :: chunks, ?_, Reader.passes_append_iff.2 ⟨s, hp, hps⟩⟩
      rw [Except.mapM_eq_ok_iff] at hm ⊢
      exact .cons he hm
    · intro hwritten
      obtain ⟨hl, chunks, hm, hp⟩ := hwritten
      cases as with
      | nil => cases hl
      | cons a as =>
        obtain ⟨bytes, chunks, he, hms, rfl⟩ :=
          List.forall₂_cons_left_iff.1 (Except.mapM_eq_ok_iff.1 hm)
        obtain ⟨s, hp, hps⟩ := Reader.passes_append_iff.1 hp
        have hs := ih.2 ⟨Nat.succ.inj hl, chunks, Except.mapM_eq_ok_iff.2 hms, hps⟩
        exact ⟨a, s, (h _ _ _).2 ⟨_, he, hp⟩, Read.bind_eq_ok_iff.2 ⟨as, r', hs, rfl⟩⟩

theorem fillMap_succ [DecidableEq κ] (key : Read κ) (value : Read ν) (n index : Nat)
    (m : OrderedMap κ ν) :
    fillMap key value (n + 1) index m = (do
      let p ← (do return (← key, ← value) : Read (κ × ν))
      if p.1 ∈ m.keys then Read.fail (.duplicateKey index)
      else fillMap key value n (index + 1) ⟨m.entries ++ [p]⟩) := by
  rw [fillMap]
  simp only [bind_assoc, pure_bind]
  refine congrArg (key >>= ·) (funext fun k ↦ congrArg (value >>= ·) (funext fun v ↦ ?_))
  by_cases hmem : k ∈ m.keys
  · obtain ⟨old, m', hinsert⟩ := OrderedMap.insert_of_mem hmem v
    rw [if_pos hmem, hinsert]
  · rw [if_neg hmem, OrderedMap.insert_of_notMem hmem]

theorem fillMap_succ_eq_ok_iff [DecidableEq κ] {key : Read κ} {value : Read ν} {n index : Nat}
    {m m' : OrderedMap κ ν} {r r' : Reader} :
    fillMap key value (n + 1) index m r = (.ok m', r') ↔
      ∃ p s, (do return (← key, ← value) : Read (κ × ν)) r = (.ok p, s) ∧ p.1 ∉ m.keys ∧
        fillMap key value n (index + 1) ⟨m.entries ++ [p]⟩ s = (.ok m', r') := by
  rw [fillMap_succ, Read.bind_eq_ok_iff]
  refine exists_congr fun p ↦ exists_congr fun s ↦ and_congr_right fun _ ↦ ?_
  by_cases hmem : p.1 ∈ m.keys
  · simp [hmem, Read.fail_ne_ok]
  · simp [hmem]

theorem Exact.fillMap [DecidableEq κ] {key : Read κ} {value : Read ν}
    {encode : κ × ν → Except Error Bytes} (h : Exact (do return (← key, ← value)) encode)
    {n index : Nat} {m m' : OrderedMap κ ν} {r r' : Reader} (hm : m.keys.Nodup) :
    Codec.fillMap key value n index m r = (.ok m', r') ↔
      ∃ entries, entries.length = n ∧ m'.entries = m.entries ++ entries ∧ m'.keys.Nodup ∧
        ∃ chunks, entries.mapM encode = .ok chunks ∧ r.Passes chunks.flatten r' := by
  induction n generalizing index m r with
  | zero =>
    rw [Codec.fillMap, Read.pure_eq_ok_iff]
    constructor
    · intro hend
      obtain ⟨hmm, hr⟩ := hend
      subst hmm
      exact ⟨[], rfl, (List.append_nil _).symm, hm, [], rfl, Reader.passes_nil_iff.2 hr⟩
    · intro hentries
      obtain ⟨entries, hl, hentries, _, chunks, hc, hp⟩ := hentries
      cases List.eq_nil_of_length_eq_zero hl
      cases hc
      rw [List.append_nil] at hentries
      obtain ⟨entries⟩ := m
      obtain ⟨entries'⟩ := m'
      exact ⟨congrArg OrderedMap.mk hentries.symm, Reader.passes_nil_iff.1 hp⟩
  | succ n ih =>
    have hnodup {p : κ × ν} (hp : p.1 ∉ m.keys) :
        (OrderedMap.mk (m.entries ++ [p])).keys.Nodup := by
      rw [OrderedMap.keys, List.map_append, List.nodup_append]
      refine ⟨hm, List.nodup_singleton _, ?_⟩
      intro k hk k' hk' hkk
      rw [hkk, List.mem_singleton.1 hk'] at hk
      exact hp hk
    rw [fillMap_succ_eq_ok_iff]
    constructor
    · intro hstep
      obtain ⟨p, s, hp, hmem, hs⟩ := hstep
      obtain ⟨bytes, he, hpass⟩ := (h _ _ _).1 hp
      obtain ⟨entries, hl, hentries, hkeys, chunks, hc, hpasses⟩ := (ih (hnodup hmem)).1 hs
      refine ⟨p :: entries, congrArg Nat.succ hl, ?_, hkeys, bytes :: chunks, ?_,
        Reader.passes_append_iff.2 ⟨s, hpass, hpasses⟩⟩
      · rw [hentries, List.append_assoc]
        rfl
      · rw [Except.mapM_eq_ok_iff] at hc ⊢
        exact .cons he hc
    · intro hentries
      obtain ⟨entries, hl, hentries, hkeys, chunks, hc, hpass⟩ := hentries
      cases entries with
      | nil => cases hl
      | cons p entries =>
        obtain ⟨bytes, chunks, he, hcs, rfl⟩ :=
          List.forall₂_cons_left_iff.1 (Except.mapM_eq_ok_iff.1 hc)
        obtain ⟨s, hp, hps⟩ := Reader.passes_append_iff.1 hpass
        have hmem : p.1 ∉ m.keys := by
          intro hmem
          rw [OrderedMap.keys, hentries, List.map_append, List.nodup_append] at hkeys
          exact hkeys.2.2 _ hmem _ List.mem_cons_self rfl
        refine ⟨p, s, (h _ _ _).2 ⟨bytes, he, hp⟩, hmem, (ih (hnodup hmem)).2
          ⟨entries, Nat.succ.inj hl, ?_, hkeys, chunks, Except.mapM_eq_ok_iff.2 hcs, hps⟩⟩
        rw [hentries, List.append_assoc]
        rfl

theorem length_flatten_of_mapM {encode : α → Except Error Bytes} {k : Nat}
    (hk : ∀ a bytes, encode a = .ok bytes → k ≤ bytes.length) {as : List α} {chunks : List Bytes}
    (h : as.mapM encode = .ok chunks) : as.length * k ≤ chunks.flatten.length := by
  have hf := Except.mapM_eq_ok_iff.1 h
  clear h
  induction hf with
  | nil => simp
  | cons he _ ih =>
    have hl := hk _ _ he
    rw [List.length_cons, List.flatten_cons, List.length_append, Nat.succ_mul]
    omega

theorem length_append_of_encodeCount {n : Nat} {count : Bytes} (h : encodeCount n = .ok count)
    (rest : Bytes) : 4 ≤ (count ++ rest).length := by
  rw [List.length_append, (encodeCount_eq_ok_iff.1 h).2, Bytes.length_littleEndian]
  exact Nat.le_add_right _ _

namespace Layout

theorem minLength_le (layout : Layout α) {a : α} {bytes : Bytes} (h : layout.encode a = .ok bytes) :
    layout.minLength ≤ bytes.length := by
  induction layout generalizing bytes with
  | u8 | bool | u16 | u32 | u64 =>
    cases h
    exact Nat.le_refl _
  | bytes n =>
    cases h
    exact Nat.le_of_eq a.length_eq.symm
  | string =>
    rw [encode_string] at h
    obtain ⟨count, hc, h⟩ := Except.bind_eq_ok_iff.1 h
    cases h
    exact length_append_of_encodeCount hc _
  | option value ih =>
    cases a with
    | none =>
      cases h
      exact Nat.le_refl _
    | some a =>
      rw [encode_some] at h
      obtain ⟨rest, -, rfl⟩ := cons_eq_ok_iff.1 h
      exact Nat.succ_le_succ (Nat.zero_le _)
  | vec item ih =>
    rw [encode_vec] at h
    obtain ⟨count, items, hc, -, rfl⟩ := append_eq_ok_iff.1 h
    exact length_append_of_encodeCount hc items
  | map key value ihk ihv =>
    cases hd : a.firstDuplicate with
    | some index =>
      rw [encode_map_of_duplicate key value a hd] at h
      cases h
    | none =>
      rw [encode_map key value a hd] at h
      obtain ⟨count, entries, hc, -, rfl⟩ := append_eq_ok_iff.1 h
      exact length_append_of_encodeCount hc entries
  | pair first second ih₁ ih₂ =>
    rw [encode_pair] at h
    obtain ⟨bytes₁, bytes₂, h₁, h₂, rfl⟩ := append_eq_ok_iff.1 h
    rw [List.length_append]
    exact Nat.add_le_add (ih₁ h₁) (ih₂ h₂)
  | union name n_lt payload ih =>
    rw [encode_union] at h
    obtain ⟨rest, hrest, rfl⟩ := cons_eq_ok_iff.1 h
    have hmem : (payload a.1).minLength ∈ List.ofFn fun i ↦ (payload i).minLength :=
      List.mem_ofFn.2 ⟨a.1, rfl⟩
    have hmin := List.min?_getD_le_of_mem (k := 0) hmem
    have hl := ih a.1 hrest
    rw [List.length_cons]
    change 1 + ((List.ofFn fun i ↦ (payload i).minLength).min?.getD 0) ≤ _
    omega
  | via e layout ih => exact ih h

theorem decode_bool :
    bool.decode = (do
      let b ← Read.byte
      if b = 0 then return false else if b = 1 then return true else Read.fail (.boolByte b)) := rfl

theorem decode_string :
    string.decode = (do
      match Utf8.decode (← Read.take (← Read.count)) with
      | .ok s => return s
      | .error fault => Read.fail (.notUtf8 fault)) := rfl

theorem decode_option (value : Layout α) :
    (option value).decode = (do
      let b ← Read.byte
      if b = 0 then return none
      else if b = 1 then return some (← value.decode)
      else Read.fail (.presenceByte b)) := rfl

theorem decode_vec (item : Layout α) :
    (vec item).decode = (do
      let count ← Read.count
      Read.ensure (count * item.minLength)
      Read.times item.decode count) := rfl

theorem decode_map [DecidableEq κ] (key : Layout κ) (value : Layout ν) :
    (map key value).decode = (do
      let count ← Read.count
      Read.ensure (count * (key.minLength + value.minLength))
      Codec.fillMap key.decode value.decode count 0 .empty) := rfl

theorem decode_union (name : String) {n : Nat} (n_lt : n < 256) {Payload : Fin (n + 1) → Type}
    (payload : (i : Fin (n + 1)) → Layout (Payload i)) :
    (union name n_lt payload).decode = (do
      let i ← Read.discriminant name (n + 1)
      return ⟨i, ← (payload i).decode⟩) := rfl

theorem decode_via (e : Bijection α β) (layout : Layout α) :
    (via e layout).decode = e.forth <$> layout.decode := rfl

theorem exact_word {k : Nat} {ofNat : Nat → α} {toNat : α → Nat} (hlt : ∀ a, toNat a < 256 ^ k)
    (hleft : ∀ a, ofNat (toNat a) = a) (hright : ∀ n, n < 256 ^ k → toNat (ofNat n) = n) :
    Exact (ofNat <$> Read.word k) fun a ↦ .ok (Bytes.littleEndian k (toNat a)) := by
  intro r a r'
  rw [Read.map_eq_ok_iff]
  constructor
  · intro hread
    obtain ⟨n, hn, ha⟩ := hread
    subst ha
    obtain ⟨hlt, hp⟩ := Read.word_eq_ok_iff.1 hn
    exact ⟨_, rfl, by rwa [hright n hlt]⟩
  · intro hwritten
    obtain ⟨encoded, he, hp⟩ := hwritten
    cases he
    exact ⟨toNat a, Read.word_eq_ok_iff.2 ⟨hlt a, hp⟩, hleft a⟩

theorem exact_bool : Exact bool.decode bool.encode := by
  intro r a r'
  rw [decode_bool, Read.bind_eq_ok_iff]
  constructor
  · intro hread
    obtain ⟨b, s, hb, h⟩ := hread
    have hp := Read.byte_eq_ok_iff.1 hb
    split at h
    · rename_i hb
      subst hb
      obtain ⟨rfl, rfl⟩ := Read.pure_eq_ok_iff.1 h
      exact ⟨_, rfl, hp⟩
    split at h
    · rename_i hb
      subst hb
      obtain ⟨rfl, rfl⟩ := Read.pure_eq_ok_iff.1 h
      exact ⟨_, rfl, hp⟩
    · exact absurd h Read.fail_ne_ok
  · intro hwritten
    obtain ⟨encoded, he, hp⟩ := hwritten
    cases he
    refine ⟨_, r', Read.byte_eq_ok_iff.2 hp, ?_⟩
    cases a <;> rfl

theorem exact_string : Exact string.decode string.encode := by
  intro r s r'
  rw [decode_string, Read.bind_eq_ok_iff, encode_string]
  constructor
  · intro hread
    obtain ⟨n, r₁, hn, h⟩ := hread
    obtain ⟨text, r₂, ht, hs⟩ := Read.bind_eq_ok_iff.1 h
    obtain ⟨count, hc, hp⟩ := (exact_count _ _ _).1 hn
    obtain ⟨hl, hpt⟩ := Read.take_eq_ok_iff.1 ht
    subst hl
    cases hd : Utf8.decode text with
    | error fault =>
      rw [hd] at hs
      exact absurd hs Read.fail_ne_ok
    | ok s' =>
      rw [hd] at hs
      obtain ⟨rfl, rfl⟩ := Read.pure_eq_ok_iff.1 hs
      rw [Utf8.decode_eq_ok_iff.1 hd]
      exact ⟨_, Except.bind_eq_ok_iff.2 ⟨count, hc, rfl⟩, Reader.passes_append_iff.2 ⟨r₁, hp, hpt⟩⟩
  · intro hwritten
    obtain ⟨encoded, he, hp⟩ := hwritten
    obtain ⟨count, hc, he⟩ := Except.bind_eq_ok_iff.1 he
    cases he
    obtain ⟨r₁, hp, hpt⟩ := Reader.passes_append_iff.1 hp
    refine ⟨_, r₁, (exact_count _ _ _).2 ⟨count, hc, hp⟩, Read.bind_eq_ok_iff.2
      ⟨_, r', Read.take_eq_ok_iff.2 ⟨rfl, hpt⟩, ?_⟩⟩
    rw [Utf8.decode_eq_ok_iff.2 rfl]
    rfl

theorem exact_option {value : Layout α} (h : Exact value.decode value.encode) :
    Exact (option value).decode (option value).encode := by
  intro r a r'
  rw [decode_option, Read.bind_eq_ok_iff]
  constructor
  · intro hread
    obtain ⟨b, s, hb, hr⟩ := hread
    have hp := Read.byte_eq_ok_iff.1 hb
    split at hr
    · rename_i hb
      subst hb
      obtain ⟨rfl, rfl⟩ := Read.pure_eq_ok_iff.1 hr
      exact ⟨_, rfl, hp⟩
    split at hr
    · rename_i hb
      subst hb
      obtain ⟨a', s', ha, hr⟩ := Read.bind_eq_ok_iff.1 hr
      obtain ⟨rfl, rfl⟩ := Read.pure_eq_ok_iff.1 hr
      obtain ⟨encoded, he, hpa⟩ := (h _ _ _).1 ha
      rw [encode_some]
      exact ⟨_, cons_eq_ok_iff.2 ⟨encoded, he, rfl⟩, Reader.passes_cons_iff.2 ⟨s, hp, hpa⟩⟩
    · exact absurd hr Read.fail_ne_ok
  · intro hwritten
    obtain ⟨encoded, he, hp⟩ := hwritten
    cases a with
    | none =>
      cases he
      exact ⟨0, r', Read.byte_eq_ok_iff.2 hp, rfl⟩
    | some a =>
      rw [encode_some] at he
      obtain ⟨rest, ha, rfl⟩ := cons_eq_ok_iff.1 he
      obtain ⟨s, hp, hpa⟩ := Reader.passes_cons_iff.1 hp
      exact ⟨1, s, Read.byte_eq_ok_iff.2 hp,
        Read.bind_eq_ok_iff.2 ⟨a, r', (h _ _ _).2 ⟨rest, ha, hpa⟩, rfl⟩⟩

theorem exact_vec {item : Layout α} (h : Exact item.decode item.encode) :
    Exact (vec item).decode (vec item).encode := by
  intro r as r'
  rw [decode_vec, Read.bind_eq_ok_iff, encode_vec]
  constructor
  · intro hread
    obtain ⟨n, r₁, hn, hr⟩ := hread
    obtain ⟨⟨⟩, r₂, hensure, hr⟩ := Read.bind_eq_ok_iff.1 hr
    obtain ⟨-, rfl⟩ := Read.ensure_eq_ok_iff.1 hensure
    obtain ⟨count, hc, hp⟩ := (exact_count _ _ _).1 hn
    obtain ⟨hl, chunks, hm, hps⟩ := h.times.1 hr
    subst hl
    exact ⟨_, append_eq_ok_iff.2 ⟨_, _, hc, Except.map_eq_ok_iff.2 ⟨chunks, hm, rfl⟩, rfl⟩,
      Reader.passes_append_iff.2 ⟨r₁, hp, hps⟩⟩
  · intro hwritten
    obtain ⟨encoded, he, hp⟩ := hwritten
    obtain ⟨count, items, hc, hm, rfl⟩ := append_eq_ok_iff.1 he
    obtain ⟨chunks, hcs, rfl⟩ := Except.map_eq_ok_iff.1 hm
    obtain ⟨r₁, hp, hps⟩ := Reader.passes_append_iff.1 hp
    -- The check of the count passes because every item takes its least length or more.
    have hlength :=
      Nat.le_trans (length_flatten_of_mapM (fun _ _ ↦ item.minLength_le) hcs) hps.length_le
    exact ⟨_, r₁, (exact_count _ _ _).2 ⟨count, hc, hp⟩, Read.bind_eq_ok_iff.2
      ⟨(), r₁, Read.ensure_eq_ok_iff.2 ⟨hlength, rfl⟩, h.times.2 ⟨rfl, chunks, hcs, hps⟩⟩⟩

theorem exact_pair {first : Layout α} {second : Layout β} (h₁ : Exact first.decode first.encode)
    (h₂ : Exact second.decode second.encode) :
    Exact (pair first second).decode (pair first second).encode := by
  intro r p r'
  rw [encode_pair]
  exact h₁.pair h₂ r p r'

theorem exact_map [DecidableEq κ] {key : Layout κ} {value : Layout ν}
    (hk : Exact key.decode key.encode) (hv : Exact value.decode value.encode) :
    Exact (map key value).decode (map key value).encode := by
  have hpair : Exact (do return (← key.decode, ← value.decode)) (pair key value).encode :=
    exact_pair hk hv
  intro r m r'
  rw [decode_map, Read.bind_eq_ok_iff]
  constructor
  · intro hread
    obtain ⟨n, r₁, hn, hr⟩ := hread
    obtain ⟨⟨⟩, r₂, hensure, hr⟩ := Read.bind_eq_ok_iff.1 hr
    obtain ⟨-, rfl⟩ := Read.ensure_eq_ok_iff.1 hensure
    obtain ⟨count, hc, hp⟩ := (exact_count _ _ _).1 hn
    obtain ⟨entries, hl, hentries, hkeys, chunks, hm, hps⟩ :=
      (hpair.fillMap OrderedMap.nodup_keys_empty).1 hr
    have hentries : m.entries = entries := hentries
    subst hl hentries
    rw [encode_map key value m (OrderedMap.firstDuplicate_eq_none_iff.2 hkeys)]
    exact ⟨_, append_eq_ok_iff.2 ⟨_, _, hc, Except.map_eq_ok_iff.2 ⟨chunks, hm, rfl⟩, rfl⟩,
      Reader.passes_append_iff.2 ⟨r₁, hp, hps⟩⟩
  · intro hwritten
    obtain ⟨encoded, he, hp⟩ := hwritten
    cases hd : m.firstDuplicate with
    | some index =>
      rw [encode_map_of_duplicate key value m hd] at he
      cases he
    | none =>
      rw [encode_map key value m hd] at he
      obtain ⟨count, items, hc, hm, rfl⟩ := append_eq_ok_iff.1 he
      obtain ⟨chunks, hcs, rfl⟩ := Except.map_eq_ok_iff.1 hm
      obtain ⟨r₁, hp, hps⟩ := Reader.passes_append_iff.1 hp
      have hlength := Nat.le_trans
        (length_flatten_of_mapM (fun _ _ ↦ (pair key value).minLength_le) hcs) hps.length_le
      exact ⟨_, r₁, (exact_count _ _ _).2 ⟨count, hc, hp⟩, Read.bind_eq_ok_iff.2
        ⟨(), r₁, Read.ensure_eq_ok_iff.2 ⟨hlength, rfl⟩,
          (hpair.fillMap OrderedMap.nodup_keys_empty).2
            ⟨m.entries, rfl, rfl, OrderedMap.firstDuplicate_eq_none_iff.1 hd, chunks, hcs, hps⟩⟩⟩

theorem exact_union {name : String} {n : Nat} {n_lt : n < 256} {Payload : Fin (n + 1) → Type}
    {payload : (i : Fin (n + 1)) → Layout (Payload i)}
    (h : ∀ i, Exact (payload i).decode (payload i).encode) :
    Exact (union name n_lt payload).decode (union name n_lt payload).encode := by
  intro r a r'
  rw [decode_union, Read.bind_eq_ok_iff, encode_union]
  constructor
  · intro hread
    obtain ⟨i, s, hi, hr⟩ := hread
    obtain ⟨b, s', hb, hr⟩ := Read.bind_eq_ok_iff.1 hr
    obtain ⟨rfl, rfl⟩ := Read.pure_eq_ok_iff.1 hr
    obtain ⟨encoded, he, hp⟩ := (h i _ _ _).1 hb
    exact ⟨_, cons_eq_ok_iff.2 ⟨encoded, he, rfl⟩,
      Reader.passes_cons_iff.2 ⟨s, (Read.discriminant_eq_ok_iff n_lt).1 hi, hp⟩⟩
  · intro hwritten
    obtain ⟨encoded, he, hp⟩ := hwritten
    obtain ⟨rest, ha, rfl⟩ := cons_eq_ok_iff.1 he
    obtain ⟨s, hi, hp⟩ := Reader.passes_cons_iff.1 hp
    exact ⟨a.1, s, (Read.discriminant_eq_ok_iff n_lt).2 hi, Read.bind_eq_ok_iff.2
      ⟨a.2, r', (h _ _ _ _).2 ⟨rest, ha, hp⟩, rfl⟩⟩

theorem exact_via {layout : Layout α} (e : Bijection α β) (h : Exact layout.decode layout.encode) :
    Exact (via e layout).decode (via e layout).encode := by
  intro r b r'
  rw [decode_via, Read.map_eq_ok_iff]
  constructor
  · intro hread
    obtain ⟨a, ha, hb⟩ := hread
    subst hb
    obtain ⟨encoded, he, hp⟩ := (h _ _ _).1 ha
    exact ⟨encoded, by rwa [← e.back_forth a] at he, hp⟩
  · intro hwritten
    obtain ⟨encoded, he, hp⟩ := hwritten
    exact ⟨e.back b, (h _ _ _).2 ⟨encoded, he, hp⟩, e.forth_back b⟩

/-- Every layout is read exactly as it is written, by induction on how the layout is built. -/
theorem exact_decode (layout : Layout α) : Exact layout.decode layout.encode := by
  induction layout with
  | u8 =>
    intro r a r'
    refine Read.byte_eq_ok_iff.trans ?_
    exact ⟨fun hp ↦ ⟨_, rfl, hp⟩, fun ⟨_, he, hp⟩ ↦ by cases he; exact hp⟩
  | u16 =>
    exact exact_word UInt16.toNat_lt (fun _ ↦ UInt16.ofNat_toNat) fun _ ↦ UInt16.toNat_ofNat_of_lt'
  | u32 =>
    exact exact_word UInt32.toNat_lt (fun _ ↦ UInt32.ofNat_toNat) fun _ ↦ UInt32.toNat_ofNat_of_lt'
  | u64 =>
    exact exact_word UInt64.toNat_lt (fun _ ↦ UInt64.ofNat_toNat) fun _ ↦ UInt64.toNat_ofNat_of_lt'
  | bool => exact exact_bool
  | bytes n =>
    intro r a r'
    refine Read.fixed_eq_ok_iff.trans ?_
    exact ⟨fun hp ↦ ⟨_, rfl, hp⟩, fun ⟨_, he, hp⟩ ↦ by cases he; exact hp⟩
  | string => exact exact_string
  | option value ih => exact exact_option ih
  | vec item ih => exact exact_vec ih
  | map key value ihk ihv => exact exact_map ihk ihv
  | pair first second ih₁ ih₂ => exact exact_pair ih₁ ih₂
  | union name n_lt payload ih => exact exact_union ih
  | via e layout ih => exact exact_via e ih

theorem decodeFront_eq_ok_iff {layout : Layout α} {input : Bytes} {a : α} {n : Nat} :
    layout.decodeFront input = .ok (a, n) ↔
      ∃ encoded rest, layout.encode a = .ok encoded ∧ input = encoded ++ rest ∧
        n = encoded.length := by
  have h : layout.decodeFront input = .ok (a, n) ↔
      ∃ rest, layout.decode (Reader.start input) = (.ok a, ⟨n, rest⟩) := by
    unfold decodeFront
    rcases layout.decode (Reader.start input) with ⟨_ | a', r⟩
    · constructor
      · intro h
        cases h
      · intro h
        obtain ⟨rest, h⟩ := h
        cases h
    · constructor
      · intro h
        cases h
        exact ⟨r.rest, rfl⟩
      · intro h
        obtain ⟨rest, h⟩ := h
        cases h
        rfl
  rw [h]
  constructor
  · intro h
    obtain ⟨rest, hr⟩ := h
    obtain ⟨encoded, he, hp⟩ := (exact_decode layout _ _ _).1 hr
    exact ⟨encoded, rest, he, Reader.passes_start_iff.1 hp⟩
  · intro h
    obtain ⟨encoded, rest, he, hp⟩ := h
    exact ⟨rest, (exact_decode layout _ _ _).2 ⟨encoded, he, Reader.passes_start_iff.2 hp⟩⟩

theorem decodeAll_eq_ok_iff {layout : Layout α} {input : Bytes} {a : α} :
    layout.decodeAll input = .ok a ↔ layout.encode a = .ok input := by
  rw [decodeAll, Except.bind_eq_ok_iff]
  constructor
  · intro h
    obtain ⟨⟨a', n⟩, hfront, h⟩ := h
    obtain ⟨encoded, rest, he, rfl, rfl⟩ := decodeFront_eq_ok_iff.1 hfront
    dsimp only at h
    split at h
    · rename_i hl
      cases h
      rw [List.length_append] at hl
      rw [List.eq_nil_of_length_eq_zero (l := rest) (by omega), List.append_nil]
      exact he
    · cases h
  · intro h
    refine ⟨(a, input.length),
      decodeFront_eq_ok_iff.2 ⟨input, [], h, (List.append_nil _).symm, rfl⟩, ?_⟩
    dsimp only
    rw [if_pos rfl]
    rfl

/-- Writing a value leaves what was written before and adds its encoding, from which the value is
read back whatever follows. What can be read is the one encoding of the value read. -/
theorem write_decode_canonical (layout : Layout α) :
    (∀ a encoded, layout.encode a = .ok encoded →
      (∀ out, (layout.write a).apply out = (.ok (), out ++ encoded)) ∧
      (∀ tail, layout.decodeFront (encoded ++ tail) = .ok (a, encoded.length)) ∧
      layout.decodeAll encoded = .ok a ∧
      ∀ tail, Program.readAccount layout (encoded ++ tail) = .ok a) ∧
    ∀ input a n, layout.decodeFront input = .ok (a, n) →
      n ≤ input.length ∧ layout.encode a = .ok (input.take n) := by
  constructor
  · intro a encoded he
    have hfront (tail : Bytes) : layout.decodeFront (encoded ++ tail) = .ok (a, encoded.length) :=
      decodeFront_eq_ok_iff.2 ⟨encoded, tail, he, rfl, rfl⟩
    refine ⟨(appends_write layout a).apply_eq_ok he, hfront, decodeAll_eq_ok_iff.2 he,
      fun tail ↦ ?_⟩
    rw [Program.readAccount, hfront tail]
  · intro input a n h
    obtain ⟨encoded, rest, he, rfl, rfl⟩ := decodeFront_eq_ok_iff.1 h
    rw [List.length_append, List.take_left]
    exact ⟨Nat.le_add_right _ _, he⟩

theorem write_decode_canonical_upgradeProposal :
    let proposal : Program.UpgradeProposal :=
      ⟨1, ⟨.replicate 32 7⟩, "é", true, ⟨[(⟨.replicate 32 9⟩, ⟨true, ⟨.replicate 32 5⟩⟩)]⟩⟩
    let encoded : Bytes := [1, 0, 0, 0] ++ .replicate 32 7 ++ [2, 0, 0, 0, 0xC3, 0xA9, 1] ++
      [1, 0, 0, 0] ++ .replicate 32 9 ++ 1 :: .replicate 32 5
    (Program.UpgradeProposal.layout.write proposal).apply [42] = (.ok (), 42 :: encoded) ∧
      Program.readAccount Program.UpgradeProposal.layout (encoded ++ [0, 0]) = .ok proposal ∧
      Program.UpgradeProposal.layout.encode proposal = .ok ((encoded ++ [7]).take 112) := by
  intro proposal encoded
  have he : Program.UpgradeProposal.layout.encode proposal = .ok encoded := by decide +kernel
  obtain ⟨happ, -, -, hread⟩ := (write_decode_canonical Program.UpgradeProposal.layout).1 _ _ he
  have hfront :
      Program.UpgradeProposal.layout.decodeFront (encoded ++ [7]) = .ok (proposal, 112) := by
    decide +kernel
  exact ⟨happ [42], hread [0, 0],
    ((write_decode_canonical Program.UpgradeProposal.layout).2 _ _ _ hfront).2⟩

end Layout

end ValidatorClient.Codec
