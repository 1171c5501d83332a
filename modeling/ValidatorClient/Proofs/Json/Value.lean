import Mathlib.Data.List.Forall2
import ValidatorClient.Json.Value

namespace ValidatorClient.Json.Value

theorem sizeOf_item {v : Value} {items : List Value} (h : v ∈ items) :
    sizeOf v < sizeOf (array items) := by
  have hlt := List.sizeOf_lt_of_mem h
  rw [array.sizeOf_spec]
  omega

theorem sizeOf_entry {entry : Option String × Value} {entries : List (Option String × Value)}
    (h : entry ∈ entries) :
    sizeOf entry.2 < sizeOf (object entries) := by
  have hlt := List.sizeOf_lt_of_mem h
  rw [object.sizeOf_spec]
  rw [Prod.mk.sizeOf_spec] at hlt
  omega

/-- The one way to write a value in tokens. -/
def tokens : Value → List Token
  | .null => [.null]
  | .bool b => [.bool b]
  | .natural n => [.natural n]
  | .otherNumber => [.otherNumber]
  | .text value => [.text value]
  | .array items =>
    .openBracket :: ([Token.comma].intercalate (items.map tokens) ++ [.closeBracket])
  | .object entries =>
    .openBrace ::
      ([Token.comma].intercalate
          (entries.map fun entry ↦ .text entry.1 :: .colon :: tokens entry.2) ++ [.closeBrace])
decreasing_by
  · exact sizeOf_item ‹_ ∈ items›
  · exact sizeOf_entry ‹_ ∈ entries›

def entryTokens (entry : Option String × Value) : List Token :=
  .text entry.1 :: .colon :: entry.2.tokens

theorem tokens_array (items : List Value) :
    (array items).tokens = .openBracket ::
      ([Token.comma].intercalate (items.map tokens) ++ [.closeBracket]) := by
  rw [tokens]

theorem tokens_object (entries : List (Option String × Value)) :
    (object entries).tokens = .openBrace ::
      ([Token.comma].intercalate (entries.map entryTokens) ++ [.closeBrace]) := by
  rw [tokens]
  rfl

def withCommas (parts : List (List Token)) : List Token := parts.flatMap (· ++ [Token.comma])

theorem intercalate_concat (parts : List (List Token)) (part : List Token) :
    [Token.comma].intercalate (parts ++ [part]) = withCommas parts ++ part := by
  induction parts with
  | nil => simp [withCommas]
  | cons first parts ih =>
    cases parts with
    | nil => simp [withCommas]
    | cons second parts =>
      simp only [List.cons_append, List.intercalate_cons_cons] at ih ⊢
      rw [ih]
      simp [withCommas]

/-- What has been read of a container that is open. -/
def Opened.tokens : Opened → List Token
  | .array items => .openBracket :: withCommas (items.reverse.map Value.tokens)
  | .object entries name =>
    .openBrace :: withCommas (entries.reverse.map entryTokens) ++ [.text name, .colon]

def Due.tokens : Due → List Token
  | .value => []
  | .itemOrEnd => []
  | .keyOrEnd entries => .openBrace :: withCommas (entries.reverse.map entryTokens)
  | .key entries => .openBrace :: withCommas (entries.reverse.map entryTokens)
  | .colon entries name =>
    .openBrace :: withCommas (entries.reverse.map entryTokens) ++ [.text name]
  | .commaOrEnd last => last.tokens

def readTokens (opened : List Opened) (due : Due) : List Token :=
  opened.reverse.flatMap Opened.tokens ++ due.tokens

/-- A container may be closed at once only if nothing of it has been read. -/
def IsSound (opened : List Opened) : Due → Prop
  | .itemOrEnd => opened.head? = some (.array [])
  | .keyOrEnd entries => entries = []
  | _ => True

variable {opened opened' : List Opened} {due due' : Due} {token : Token} {ts : List Token}
  {v : Value}

theorem readTokens_of_step (hsound : IsSound opened due)
    (h : step? opened due token = some (opened', due')) :
    readTokens opened' due' = readTokens opened due ++ [token] ∧ IsSound opened' due' := by
  cases due with
  | value =>
    cases token <;> cases h <;>
      simp [readTokens, Opened.tokens, Due.tokens, withCommas, IsSound, tokens]
  | itemOrEnd =>
    obtain ⟨above, rfl⟩ := List.head?_eq_some_iff.1 hsound
    cases token <;> cases h <;>
      simp [readTokens, Opened.tokens, Due.tokens, withCommas, IsSound, tokens]
  | keyOrEnd entries =>
    cases hsound
    cases token <;> cases h <;> simp [readTokens, Due.tokens, withCommas, IsSound, tokens]
  | key entries =>
    cases token <;> cases h
    simp [readTokens, Due.tokens, IsSound]
  | colon entries key =>
    cases token <;> cases h
    simp [readTokens, Opened.tokens, Due.tokens, IsSound]
  | commaOrEnd last =>
    cases opened with
    | nil => cases h
    | cons container above =>
      cases container with
      | array items =>
        cases token with
        | comma =>
          cases h
          simp [readTokens, Opened.tokens, Due.tokens, IsSound, withCommas]
        | closeBracket =>
          cases h
          rw [readTokens, Due.tokens, tokens_array, List.reverse_cons, List.map_append,
            List.map_cons, List.map_nil, intercalate_concat]
          simp [readTokens, Opened.tokens, Due.tokens, IsSound]
        | _ => cases h
      | object entries key =>
        cases token with
        | comma =>
          cases h
          simp [readTokens, Opened.tokens, Due.tokens, IsSound, withCommas, entryTokens]
        | closeBrace =>
          cases h
          rw [readTokens, Due.tokens, tokens_object, List.reverse_cons, List.map_append,
            List.map_cons, List.map_nil, intercalate_concat]
          simp [readTokens, Opened.tokens, Due.tokens, IsSound, entryTokens]
        | _ => cases h

theorem tokens_of_build (hsound : IsSound opened due) (h : build? opened due ts = some v) :
    readTokens opened due ++ ts = v.tokens := by
  induction ts generalizing opened due with
  | nil =>
    cases opened with
    | nil =>
      cases due <;> cases h
      rw [List.append_nil]
      rfl
    | cons container above => cases h
  | cons token ts ih =>
    rw [build?] at h
    cases hstep : step? opened due token with
    | none =>
      rw [hstep] at h
      cases h
    | some next =>
      obtain ⟨hread, hnext⟩ := readTokens_of_step hsound hstep
      rw [hstep] at h
      rw [← ih hnext h, hread, List.append_assoc, List.singleton_append]

theorem build?_cons {next : List Opened × Due} (h : step? opened due token = some next) :
    build? opened due (token :: ts) = build? next.1 next.2 ts := by
  rw [build?, h]

theorem build?_itemOrEnd (v : Value) :
    build? opened .itemOrEnd (v.tokens ++ ts) = build? opened .value (v.tokens ++ ts) := by
  cases v <;> simp [tokens, build?, step?]

theorem intercalate_cons {α : Type} (between part : List α) (parts : List (List α)) :
    between.intercalate (part :: parts) = part ++ parts.flatMap (between ++ ·) := by
  induction parts generalizing part with
  | nil => simp
  | cons next parts ih =>
    rw [List.intercalate_cons_cons, ih, List.flatMap_cons, List.append_assoc, List.append_assoc]

theorem build?_moreItems {v : Value} {items before : List Value}
    (h : ∀ item ∈ items, ∀ opened ts,
      build? opened .value (item.tokens ++ ts) = build? opened (.commaOrEnd item) ts) :
    build? (.array before :: opened) (.commaOrEnd v)
        ((items.map tokens).flatMap ([.comma] ++ ·) ++ .closeBracket :: ts) =
      build? opened (.commaOrEnd (.array (before.reverse ++ v :: items))) ts := by
  induction items generalizing v before with
  | nil =>
    rw [List.map_nil, List.flatMap_nil, List.nil_append, build?_cons rfl, List.reverse_cons]
  | cons item items ih =>
    obtain ⟨hitem, h⟩ := List.forall_mem_cons.1 h
    rw [List.map_cons, List.flatMap_cons, List.append_assoc, List.append_assoc,
      List.singleton_append, build?_cons rfl, hitem, ih h, List.reverse_cons, List.append_assoc,
      List.singleton_append]

theorem build?_moreEntries {v : Value} {key : Option String}
    {entries before : List (Option String × Value)}
    (h : ∀ entry ∈ entries, ∀ opened ts,
      build? opened .value (entry.2.tokens ++ ts) = build? opened (.commaOrEnd entry.2) ts) :
    build? (.object before key :: opened) (.commaOrEnd v)
        ((entries.map entryTokens).flatMap ([.comma] ++ ·) ++ .closeBrace :: ts) =
      build? opened (.commaOrEnd (.object (before.reverse ++ (key, v) :: entries))) ts := by
  induction entries generalizing key v before with
  | nil =>
    rw [List.map_nil, List.flatMap_nil, List.nil_append, build?_cons rfl, List.reverse_cons]
  | cons entry entries ih =>
    obtain ⟨hentry, h⟩ := List.forall_mem_cons.1 h
    rw [List.map_cons, List.flatMap_cons, List.append_assoc, List.append_assoc,
      List.singleton_append, build?_cons rfl, entryTokens, List.cons_append, build?_cons rfl,
      List.cons_append, build?_cons rfl, hentry, ih h, List.reverse_cons, List.append_assoc,
      List.singleton_append]

theorem build?_tokens (v : Value) (opened : List Opened) (ts : List Token) :
    build? opened .value (v.tokens ++ ts) = build? opened (.commaOrEnd v) ts := by
  match v with
  | .null => rw [tokens, List.singleton_append, build?_cons rfl]
  | .bool b => rw [tokens, List.singleton_append, build?_cons rfl]
  | .natural n => rw [tokens, List.singleton_append, build?_cons rfl]
  | .otherNumber => rw [tokens, List.singleton_append, build?_cons rfl]
  | .text value => rw [tokens, List.singleton_append, build?_cons rfl]
  | .array [] => simp [tokens, build?, step?]
  | .array (item :: items) =>
    have hitem := build?_tokens item
    have hitems (v : Value) (hv : v ∈ items) := build?_tokens v
    rw [tokens_array, List.map_cons, intercalate_cons, List.cons_append, build?_cons rfl,
      List.append_assoc, List.singleton_append, List.append_assoc, build?_itemOrEnd, hitem,
      build?_moreItems hitems, List.reverse_nil, List.nil_append]
  | .object [] => simp [tokens, build?, step?]
  | .object (entry :: entries) =>
    have hentry := build?_tokens entry.2
    have hentries (e : Option String × Value) (he : e ∈ entries) := build?_tokens e.2
    rw [tokens_object, List.map_cons, intercalate_cons, List.cons_append, build?_cons rfl,
      List.append_assoc, List.singleton_append, List.append_assoc, entryTokens, List.cons_append,
      build?_cons rfl, List.cons_append, build?_cons rfl, hentry, build?_moreEntries hentries,
      List.reverse_nil, List.nil_append]
termination_by sizeOf v
decreasing_by
  · exact sizeOf_item List.mem_cons_self
  · exact sizeOf_item (List.mem_cons_of_mem item hv)
  · exact sizeOf_entry List.mem_cons_self
  · exact sizeOf_entry (List.mem_cons_of_mem entry he)

/-- Tokens are read as a value exactly if they are its own. -/
theorem build?_eq_some_iff : build? [] .value ts = some v ↔ ts = v.tokens := by
  constructor
  · intro h
    have hsound : IsSound [] .value := trivial
    exact tokens_of_build hsound h
  · rintro rfl
    rw [← List.append_nil v.tokens, build?_tokens]
    rfl

theorem parse?_eq_some_iff {s : String} : parse? s = some v ↔ Token.ofText? s = some v.tokens := by
  rw [parse?, Option.bind_eq_bind, Option.bind_eq_some_iff]
  simp only [build?_eq_some_iff, exists_eq_right]

theorem mapM_eq_some_iff {α β : Type} {f : α → Option β} {as : List α} {bs : List β} :
    as.mapM f = some bs ↔ List.Forall₂ (fun a b ↦ f a = some b) as bs := by
  induction as generalizing bs with
  | nil => simp [eq_comm]
  | cons a as ih =>
    rw [List.mapM_cons, List.forall₂_cons_left_iff, Option.bind_eq_bind, Option.bind_eq_some_iff]
    refine exists_congr fun b ↦ ?_
    rw [Option.bind_eq_bind, Option.bind_eq_some_iff]
    constructor
    · intro h
      obtain ⟨hb, more, hmore, hbs⟩ := h
      exact ⟨more, hb, ih.1 hmore, (Option.some.inj hbs).symm⟩
    · intro h
      obtain ⟨more, hb, hmore, rfl⟩ := h
      exact ⟨hb, more, ih.2 hmore, rfl⟩

end ValidatorClient.Json.Value
