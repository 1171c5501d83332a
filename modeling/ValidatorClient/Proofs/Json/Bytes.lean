import Mathlib.Data.List.Chain
import ValidatorClient.Proofs.Json.Written
import ValidatorClient.Proofs.Text.Numeral

namespace ValidatorClient.Json

open Text

namespace Token

def IsSpace (c : Char) : Prop := c = ' ' ∨ c = '\n' ∨ c = '\r' ∨ c = '\t'

inductive IsMark : Char → Token → Prop
  | openBracket : IsMark '[' .openBracket
  | closeBracket : IsMark ']' .closeBracket
  | comma : IsMark ',' .comma

/-- The characters are brackets, commas and natural numbers without needless zeros, with blanks
anywhere between them. -/
inductive Spelled : List Token → List Char → Prop
  | nil : Spelled [] []
  | blank {tokens : List Token} {cs : List Char} {c : Char} (hc : IsSpace c)
      (h : Spelled tokens cs) :
    Spelled tokens (c :: cs)
  | mark {token : Token} {tokens : List Token} {cs : List Char} {c : Char} (hc : IsMark c token)
      (h : Spelled tokens cs) : Spelled (token :: tokens) (c :: cs)
  | natural {n : Nat} {tokens : List Token} {digits cs : List Char}
      (hn : Text.Numeral.IsDecimal digits n)
      (hzero : digits.head? = some '0' → digits = ['0']) (h : Spelled tokens cs) :
    Spelled (.natural n :: tokens) (digits ++ cs)

def IsPlain : Token → Prop
  | .openBracket => True
  | .closeBracket => True
  | .comma => True
  | .natural _ => True
  | _ => False

/-- What the characters that are still to be read have to be for plain tokens. -/
def Leads : State → List Token → List Char → Prop
  | .between, tokens, cs => Spelled tokens cs
  | .numeral false .empty, tokens, cs => Spelled tokens cs
  | .numeral false .zero, tokens, cs => ∃ more, tokens = .natural 0 :: more ∧ Spelled more cs
  | .numeral false (.whole n), tokens, cs => ∃ digits rest more, cs = digits ++ rest ∧
    (∀ c ∈ digits, c.isDigit = true) ∧ tokens = .natural (Nat.ofDigitChars 10 digits n) :: more ∧
      Spelled more rest
  | .word _ token, _, _ => IsPlain token
  | _, _, _ => False

variable {token : Token} {tokens out more : List Token} {state state' : State} {c : Char}
  {cs digits rest : List Char} {n m : Nat}

theorem isDecimal_cons (hc : c.isDigit = true) (hdigits : ∀ c ∈ digits, c.isDigit = true) :
    Text.Numeral.IsDecimal (c :: digits) (Nat.ofDigitChars 10 digits (c.toNat - 0x30)) := by
  refine ⟨List.cons_ne_nil c digits, List.forall_mem_cons.2 ⟨hc, hdigits⟩, ?_⟩
  rw [Text.Numeral.ofDigitChars_cons, Nat.mul_zero, Nat.zero_add]

theorem spelled_of_number {part : Numeral} (hpart : Numeral.empty.next? c = some part)
    (h : Leads (.numeral false part) more cs) : Spelled more (c :: cs) := by
  rcases ite_eq_iff.1 hpart with ⟨rfl, hpart⟩ | ⟨hzero, hpart⟩
  · cases hpart
    obtain ⟨more, rfl, h⟩ := h
    have hdecimal : Text.Numeral.IsDecimal ['0'] 0 := isDecimal_cons rfl nofun
    exact .natural hdecimal (fun _ ↦ rfl) h
  rcases ite_eq_iff.1 hpart with ⟨hdigit, hpart⟩ | ⟨-, hpart⟩
  · cases hpart
    obtain ⟨digits, rest, more, rfl, hdigits, rfl, h⟩ := h
    exact .natural (isDecimal_cons hdigit hdigits)
      (fun hhead ↦ absurd (Option.some.inj hhead) hzero) h
  · cases hpart

theorem step?_space (h : IsSpace c) : step? .between c = some ([], .between) := if_pos h

theorem step?_mark (h : IsMark c token) : step? .between c = some ([token], .between) := by
  cases h <;> rfl

def others : List Char := ['{', '}', ':', '"', 'n', 't', 'f', '-']

theorem begin?_of_others (hspace : ¬ IsSpace c) (hmark : ∀ token, ¬ IsMark c token)
    (hothers : c ∉ others) :
    begin? c = (Numeral.empty.next? c).map fun part ↦ ([], .numeral false part) := by
  have hne {d : Char} {token : Token} (hd : IsMark d token) : c ≠ d := by
    rintro rfl
    exact hmark token hd
  have hopen := hne .openBracket
  have hclose := hne .closeBracket
  have hcomma := hne .comma
  rw [IsSpace] at hspace
  rw [begin?, if_neg hspace]
  simp only [others, List.mem_cons, List.not_mem_nil, or_false, not_or] at hothers
  simp only [hothers, hopen, hclose, hcomma, if_false]

theorem spelled_of_begin (hbegin : begin? c = some (out, state))
    (hplain : ∀ token ∈ out, IsPlain token) (h : Leads state more cs) :
    Spelled (out ++ more) (c :: cs) := by
  by_cases hspace : IsSpace c
  · cases (step?_space hspace).symm.trans hbegin
    exact .blank hspace h
  by_cases hmark : ∃ token, IsMark c token
  · obtain ⟨token, hmark⟩ := hmark
    cases (step?_mark hmark).symm.trans hbegin
    exact .mark hmark h
  by_cases hothers : c ∈ others
  · simp only [others, List.mem_cons, List.not_mem_nil, or_false] at hothers
    rcases hothers with rfl | rfl | rfl | rfl | rfl | rfl | rfl | rfl <;> cases hbegin
    · cases hplain _ List.mem_cons_self
    · cases hplain _ List.mem_cons_self
    · cases hplain _ List.mem_cons_self
    all_goals cases h
  · rw [begin?_of_others hspace (not_exists.1 hmark) hothers] at hbegin
    obtain ⟨part, hpart, hnext⟩ := Option.map_eq_some_iff.1 hbegin
    cases hnext
    exact spelled_of_number hpart h

theorem leads_of_end {negative : Bool} {part : Numeral} (htoken : part.token? negative = some token)
    (hplain : IsPlain token) (h : Spelled more cs) :
    Leads (.numeral negative part) (token :: more) cs := by
  cases part with
  | zero =>
    cases negative <;> cases htoken
    · exact ⟨more, rfl, h⟩
    · cases hplain
  | whole n =>
    cases negative <;> cases htoken
    · exact ⟨[], cs, more, rfl, nofun, rfl, h⟩
    · cases hplain
  | _ =>
    cases htoken <;> cases hplain

theorem leads_of_next {part next : Numeral} (hnext : part.next? c = some next)
    (h : Leads (.numeral false next) more cs) : Leads (.numeral false part) more (c :: cs) := by
  cases part with
  | empty => exact spelled_of_number hnext h
  | zero =>
    rcases ite_eq_iff.1 hnext with ⟨-, hnext⟩ | ⟨-, hnext⟩
    · cases hnext
      cases h
    rcases ite_eq_iff.1 hnext with ⟨-, hnext⟩ | ⟨-, hnext⟩
    · cases hnext
      cases h
    · cases hnext
  | whole n =>
    rcases ite_eq_iff.1 hnext with ⟨hdigit, hnext⟩ | ⟨-, hnext⟩
    · cases hnext
      obtain ⟨digits, rest, more, rfl, hdigits, rfl, h⟩ := h
      refine ⟨c :: digits, rest, more, rfl, List.forall_mem_cons.2 ⟨hdigit, hdigits⟩, ?_, h⟩
      rw [Text.Numeral.ofDigitChars_cons]
    rcases ite_eq_iff.1 hnext with ⟨-, hnext⟩ | ⟨-, hnext⟩
    · cases hnext
      cases h
    rcases ite_eq_iff.1 hnext with ⟨-, hnext⟩ | ⟨-, hnext⟩
    · cases hnext
      cases h
    · cases hnext
  | _ =>
    unfold Numeral.next? at hnext
    dsimp only at hnext
    split_ifs at hnext <;> cases hnext <;> cases h

theorem leads_of_numeral {negative : Bool} {part : Numeral}
    (hstep : step? (.numeral negative part) c = some (out, state))
    (hplain : ∀ token ∈ out, IsPlain token) (h : Leads state more cs) :
    Leads (.numeral negative part) (out ++ more) (c :: cs) := by
  rw [step?] at hstep
  cases hnext : part.next? c with
  | some next =>
    rw [hnext] at hstep
    cases hstep
    cases negative with
    | true => cases h
    | false => exact leads_of_next hnext h
  | none =>
    rw [hnext] at hstep
    obtain ⟨token, htoken, hstep⟩ := Option.bind_eq_some_iff.1 hstep
    obtain ⟨⟨out, state⟩, hbegin, hstep⟩ := Option.bind_eq_some_iff.1 hstep
    cases hstep
    rw [List.forall_mem_cons] at hplain
    exact leads_of_end htoken hplain.1 (spelled_of_begin hbegin hplain.2 h)

theorem leads_of_step (hstep : step? state c = some (out, state'))
    (hplain : ∀ token ∈ out, IsPlain token) (h : Leads state' more cs) :
    Leads state (out ++ more) (c :: cs) := by
  cases state with
  | between => exact spelled_of_begin hstep hplain h
  | numeral negative part => exact leads_of_numeral hstep hplain h
  | word due token =>
    cases due with
    | nil => cases hstep
    | cons d due =>
      cases due with
      | nil =>
        rcases ite_eq_iff.1 hstep with ⟨-, hstep⟩ | ⟨-, hstep⟩
        · cases hstep
          exact hplain token List.mem_cons_self
        · cases hstep
      | cons e due =>
        rcases ite_eq_iff.1 hstep with ⟨-, hstep⟩ | ⟨-, hstep⟩
        · cases hstep
          exact h
        · cases hstep
  | text written =>
    rcases ite_eq_iff.1 hstep with ⟨-, hstep⟩ | ⟨-, hstep⟩
    · cases hstep
      cases hplain _ List.mem_cons_self
    rcases ite_eq_iff.1 hstep with ⟨-, hstep⟩ | ⟨-, hstep⟩
    · cases hstep
      cases h
    rcases ite_eq_iff.1 hstep with ⟨-, hstep⟩ | ⟨-, hstep⟩
    · cases hstep
    · cases hstep
      cases h
  | escape written =>
    obtain ⟨next, hescaped, hstep⟩ := Option.map_eq_some_iff.1 hstep
    cases hstep
    unfold escaped? at hescaped
    split_ifs at hescaped <;> cases hescaped <;> cases h
  | unit written due value =>
    unfold step? at hstep
    dsimp only at hstep
    by_cases hc : 0x80 ≤ c.toNat
    · rw [if_pos hc] at hstep
      cases hstep
    · rw [if_neg hc] at hstep
      obtain ⟨digit, -, hstep⟩ := Option.bind_eq_some_iff.1 hstep
      rcases ite_eq_iff.1 hstep with ⟨-, hstep⟩ | ⟨-, hstep⟩
      · cases hstep
        cases h
      · cases hstep
        cases h

theorem leads_of_scan (hscan : scan? state cs = some tokens)
    (hplain : ∀ token ∈ tokens, IsPlain token) :
    Leads state tokens cs := by
  -- from the end: a state from which plain tokens follow has read nothing else so far
  induction cs generalizing state tokens with
  | nil =>
    cases state with
    | between =>
      cases hscan
      exact .nil
    | numeral negative part =>
      obtain ⟨token, htoken, hscan⟩ := Option.map_eq_some_iff.1 hscan
      cases hscan
      exact leads_of_end htoken (hplain token List.mem_cons_self) .nil
    | _ => cases hscan
  | cons c cs ih =>
    rw [scan?] at hscan
    obtain ⟨⟨out, next⟩, hstep, hscan⟩ := Option.bind_eq_some_iff.1 hscan
    obtain ⟨more, hmore, hscan⟩ := Option.bind_eq_some_iff.1 hscan
    cases hscan
    rw [List.forall_mem_append] at hplain
    exact leads_of_step hstep hplain.1 (ih hmore hplain.2)

theorem begin?_of_isDigit (h : c.isDigit = true) :
    begin? c = (Numeral.empty.next? c).map fun part ↦ ([], .numeral false part) := by
  refine begin?_of_others ?_ ?_ ?_
  · rintro (rfl | rfl | rfl | rfl) <;> cases h
  · rintro token ⟨⟩ <;> cases h
  · intro hothers
    have hdigits : others.all (!·.isDigit) = true := rfl
    simpa [h] using List.all_eq_true.1 hdigits c hothers

theorem scan?_digits (hdigits : ∀ c ∈ digits, c.isDigit = true) :
    scan? (.numeral false (.whole n)) (digits ++ rest) =
      scan? (.numeral false (.whole (Nat.ofDigitChars 10 digits n))) rest := by
  induction digits generalizing n with
  | nil => rfl
  | cons c digits ih =>
    obtain ⟨hc, hdigits⟩ := List.forall_mem_cons.1 hdigits
    have hstep : step? (.numeral false (.whole n)) c =
        some ([], .numeral false (.whole (10 * n + (c.toNat - 0x30)))) := by
      simp [step?, Numeral.next?, hc]
    rw [List.cons_append, scan?_cons_quiet _ hstep, ih hdigits, Text.Numeral.ofDigitChars_cons]

def IsRead (n : Nat) (part : Numeral) : Prop := part = .whole n ∨ part = .zero ∧ n = 0

theorem exists_isRead (hn : Text.Numeral.IsDecimal digits n)
    (hzero : digits.head? = some '0' → digits = ['0']) (rest : List Char) :
    ∃ part, IsRead n part ∧ scan? .between (digits ++ rest) = scan? (.numeral false part) rest := by
  obtain ⟨hne, hdigits, rfl⟩ := hn
  cases digits with
  | nil => exact absurd rfl hne
  | cons c digits =>
    obtain ⟨hc, hdigits⟩ := List.forall_mem_cons.1 hdigits
    by_cases hc0 : c = '0'
    · subst hc0
      cases hzero rfl
      exact ⟨.zero, .inr ⟨rfl, rfl⟩, scan?_cons_quiet rest rfl⟩
    · have hstep : step? .between c = some ([], .numeral false (.whole (c.toNat - 0x30))) := by
        rw [step?, begin?_of_isDigit hc, Numeral.next?]
        simp [hc0, hc]
      refine ⟨_, .inl rfl, ?_⟩
      rw [List.cons_append, scan?_cons_quiet _ hstep, scan?_digits hdigits,
        Text.Numeral.ofDigitChars_cons, Nat.mul_zero, Nat.zero_add]

/-- Before all but a number stands a character that is no part of one. -/
theorem Spelled.head (h : Spelled tokens (c :: cs))
    (hhead : ∀ n, tokens.head? ≠ some (.natural n)) :
    IsSpace c ∨ ∃ token, IsMark c token := by
  generalize hall : c :: cs = all at h
  cases h with
  | nil => cases hall
  | blank hc h =>
    cases hall
    exact .inl hc
  | mark hc h =>
    cases hall
    exact .inr ⟨_, hc⟩
  | natural hn hzero h => exact absurd rfl (hhead _)

theorem next?_eq_none {part : Numeral} (hpart : IsRead n part)
    (hc : IsSpace c ∨ ∃ token, IsMark c token) :
    part.next? c = none := by
  rcases hpart with rfl | ⟨rfl, rfl⟩
  · rcases hc with (rfl | rfl | rfl | rfl) | ⟨token, ⟨⟩⟩ <;> rfl
  · rcases hc with (rfl | rfl | rfl | rfl) | ⟨token, ⟨⟩⟩ <;> rfl

theorem scan?_end {part : Numeral} (hpart : IsRead n part)
    (hhead : ∀ n, tokens.head? ≠ some (.natural n)) (h : Spelled tokens cs)
    (hscan : scan? .between cs = some tokens) :
    scan? (.numeral false part) cs = some (.natural n :: tokens) := by
  have htoken : part.token? false = some (.natural n) := by
    rcases hpart with rfl | ⟨rfl, rfl⟩ <;> rfl
  cases cs with
  | nil =>
    cases hscan
    rw [scan?, htoken]
    rfl
  | cons c cs =>
    have hnext := next?_eq_none hpart (h.head hhead)
    cases hbegin : step? .between c with
    | none =>
      rw [scan?, hbegin] at hscan
      cases hscan
    | some next =>
      obtain ⟨out, state⟩ := next
      have hstep : step? (.numeral false part) c = some (.natural n :: out, state) := by
        rw [step?] at hbegin
        rw [step?.eq_def]
        dsimp only
        rw [hnext, htoken, hbegin]
        rfl
      rw [scan?_cons cs hbegin] at hscan
      obtain ⟨more, hmore, rfl⟩ := Option.map_eq_some_iff.1 hscan
      rw [scan?_cons cs hstep, hmore]
      rfl

/-- Two numbers with nothing between them would be read as one. -/
def Apart (token next : Token) : Prop := ∀ n m, token = .natural n → next ≠ .natural m

theorem scan_of_spelled (h : Spelled tokens cs) (hapart : tokens.IsChain Apart) :
    scan? .between cs = some tokens := by
  induction h with
  | nil => rfl
  | @blank tokens cs c hc h ih =>
    rw [scan?_cons_quiet _ (step?_space hc), ih hapart]
  | mark hc h ih =>
    rw [scan?_cons _ (step?_mark hc), ih hapart.tail]
    rfl
  | @natural n tokens digits cs hn hzero h ih =>
    obtain ⟨part, hpart, hscan⟩ := exists_isRead hn hzero cs
    rw [hscan]
    refine scan?_end hpart (fun m hm ↦ ?_) h (ih hapart.tail)
    obtain ⟨more, rfl⟩ := List.head?_eq_some_iff.1 hm
    exact hapart.rel n m rfl rfl

def ofMoreBytes (bytes : Bytes) : List Token :=
  (bytes.flatMap fun b ↦ [.comma, .natural b.toNat]) ++ [.closeBracket]

def ofBytes : Bytes → List Token
  | [] => [.openBracket, .closeBracket]
  | b :: bytes => .openBracket :: .natural b.toNat :: ofMoreBytes bytes

theorem isPlain_ofBytes (bytes : Bytes) : ∀ token ∈ ofBytes bytes, IsPlain token := by
  cases bytes with
  | nil => simp [ofBytes, IsPlain]
  | cons b bytes =>
    simp only [ofBytes, ofMoreBytes, List.mem_cons, List.mem_append, List.mem_flatMap,
      List.not_mem_nil, or_false]
    rintro token (rfl | rfl | ⟨_, -, rfl | rfl⟩ | rfl) <;> trivial

theorem isChain_ofMoreBytes (n : Nat) (bytes : Bytes) :
    (.natural n :: ofMoreBytes bytes).IsChain Apart := by
  induction bytes generalizing n with
  | nil => exact .cons_cons nofun (.singleton _)
  | cons b bytes ih => exact .cons_cons nofun (.cons_cons nofun (ih b.toNat))

theorem isChain_ofBytes (bytes : Bytes) : (ofBytes bytes).IsChain Apart := by
  cases bytes with
  | nil => exact .cons_cons nofun (.singleton _)
  | cons b bytes => exact .cons_cons nofun (isChain_ofMoreBytes b.toNat bytes)

theorem ofText?_eq_ofBytes_iff {s : String} {bytes : Bytes} :
    ofText? s = some (ofBytes bytes) ↔ Spelled (ofBytes bytes) s.toList :=
  ⟨fun h ↦ leads_of_scan h (isPlain_ofBytes bytes),
    fun h ↦ scan_of_spelled h (isChain_ofBytes bytes)⟩

end Token

variable {bytes : Bytes} {s : String} {v : Value}

namespace Value

def ofBytes (bytes : Bytes) : Value := .array (bytes.map fun b ↦ .natural b.toNat)

theorem tokens_ofBytes (bytes : Bytes) : (ofBytes bytes).tokens = Token.ofBytes bytes := by
  have hbyte (b : UInt8) : (natural b.toNat).tokens = [.natural b.toNat] := by rw [tokens]
  rw [ofBytes, tokens_array, List.map_map]
  cases bytes with
  | nil => rfl
  | cons b bytes =>
    rw [List.map_cons, intercalate_cons, Token.ofBytes, Token.ofMoreBytes, List.flatMap_map]
    simp [hbyte]

theorem bytes?_eq_some_iff : bytes? v = some bytes ↔ v = ofBytes bytes := by
  cases v with
  | array items =>
    rw [bytes?, mapM_eq_some_iff, ofBytes, array.injEq, ← List.forall₂_eq_eq_eq,
      List.forall₂_map_right_iff]
    refine iff_of_eq (congrArg (List.Forall₂ · items bytes) (funext₂ fun item b ↦ propext ?_))
    cases item with
    | natural n =>
      rw [natural.injEq]
      constructor
      · intro h
        rcases ite_eq_iff.1 h with ⟨hlt, h⟩ | ⟨-, h⟩
        · rw [← Option.some.inj h, UInt8.toNat_ofNat_of_lt' hlt]
        · cases h
      · rintro rfl
        exact (if_pos b.toNat_lt).trans (congrArg some UInt8.ofNat_toNat)
    | _ => simp
  | _ => simp [bytes?, ofBytes]

end Value

/-- The text is an array of these bytes in decimal. -/
def IsBytesText (bytes : Bytes) (s : String) : Prop := Token.Spelled (Token.ofBytes bytes) s.toList

theorem bytes?_of_parse_eq_some_iff :
    (Value.parse? s).bind Value.bytes? = some bytes ↔ IsBytesText bytes s := by
  rw [Option.bind_eq_some_iff]
  simp only [Value.bytes?_eq_some_iff, exists_eq_right, Value.parse?_eq_some_iff,
    Value.tokens_ofBytes, Token.ofText?_eq_ofBytes_iff]
  rfl

example : (Value.parse? "[0,\t255 ]\n").bind Value.bytes? = some [0, 255] := by decide

theorem spelled_byte {tokens : List Token} {cs : List Char} (b : UInt8)
    (h : Token.Spelled tokens cs) :
    Token.Spelled (.natural b.toNat :: tokens) (Nat.toDigits 10 b.toNat ++ cs) := by
  refine .natural (Text.Numeral.isDecimal_toDigits b.toNat) (fun hhead ↦ ?_) h
  rw [Text.Numeral.eq_zero_of_head?_toDigits hhead]
  rfl

theorem spelled_moreBytes (bytes : Bytes) : Token.Spelled (Token.ofMoreBytes bytes)
    ((bytes.map fun b ↦ Nat.toDigits 10 b.toNat).flatMap ([','] ++ ·) ++ [']']) := by
  induction bytes with
  | nil => exact .mark .closeBracket .nil
  | cons b bytes ih =>
    rw [List.map_cons, List.flatMap_cons, List.append_assoc, List.append_assoc]
    exact .mark .comma (spelled_byte b ih)

theorem isBytesText_bytesText (bytes : Bytes) : IsBytesText bytes (bytesText bytes) := by
  have htext : (bytesText bytes).toList =
      '[' :: ([','].intercalate (bytes.map fun b ↦ Nat.toDigits 10 b.toNat) ++ [']']) := by
    simp [bytesText, String.toList_append, String.toList_intercalate, Function.comp_def]
  rw [IsBytesText, htext]
  cases bytes with
  | nil => exact .mark .openBracket (.mark .closeBracket .nil)
  | cons b bytes =>
    rw [List.map_cons, Value.intercalate_cons, List.append_assoc]
    exact .mark .openBracket (spelled_byte b (spelled_moreBytes bytes))

end ValidatorClient.Json
