import Mathlib.Tactic.SplitIfs
import ValidatorClient.Json.Written
import ValidatorClient.Proofs.Json.Value

namespace ValidatorClient.Json

namespace Token

theorem scan?_cons {state state' : State} {c : Char} {tokens : List Token} (cs : List Char)
    (h : step? state c = some (tokens, state')) :
    scan? state (c :: cs) = (scan? state' cs).map (tokens ++ ·) := by
  rw [scan?, h]
  cases hscan : scan? state' cs <;> simp [hscan]

theorem scan?_cons_quiet {state state' : State} {c : Char} (cs : List Char)
    (h : step? state c = some ([], state')) : scan? state (c :: cs) = scan? state' cs := by
  rw [scan?_cons cs h]
  cases scan? state' cs <;> rfl

def Written.ofChars (cs : List Char) : Written := ⟨cs, true, none⟩

theorem value_ofChars (cs : List Char) :
    (Written.ofChars cs).value = some (String.ofList cs.reverse) := rfl

theorem push_ofChars (cs : List Char) (c : Char) :
    (Written.ofChars cs).push c = .ofChars (c :: cs) := rfl

theorem digitValue?_digit :
    ∀ n < 16, Text.Hex.digitValue? (UInt8.ofNat (Text.Hex.digit n).toNat) = some n ∧
    (Text.Hex.digit n).toNat < 0x80 := by
  decide

theorem step?_unit {w : Written} {due n digit : Nat} (h : digit < 16) :
    step? (.unit w due n) (Text.Hex.digit digit) =
      some ([], if due = 1 then .text (w.pushUnit (16 * n + digit))
        else .unit w (due - 1) (16 * n + digit)) := by
  obtain ⟨hdigit, hlt⟩ := digitValue?_digit digit h
  have hascii : ¬ 0x80 ≤ (Text.Hex.digit digit).toNat := by omega
  by_cases hdue : due = 1 <;> simp [step?, hascii, hdigit, hdue]

theorem scan?_short {w : Written} {e c : Char} (rest : List Char)
    (h : escaped? w e = some (.text (w.push c))) :
    scan? (.text w) ('\\' :: e :: rest) = scan? (.text (w.push c)) rest := by
  have hstep : step? (.escape w) e = some ([], .text (w.push c)) := by
    rw [step?, h, Option.map_some]
  rw [scan?_cons_quiet _ rfl, scan?_cons_quiet rest hstep]

theorem pushUnit_of_lt {w : Written} {n : Nat} (h : n < 0xD800) :
    w.pushUnit n = w.push (Char.ofNat n) := by
  rw [Written.pushUnit, if_neg (by omega), if_neg (by omega)]

theorem scan?_escape (c : Char) (cs rest : List Char) :
    scan? (.text (.ofChars cs)) (escape c ++ rest) = scan? (.text (.ofChars (c :: cs))) rest := by
  unfold escape
  split_ifs with hquote hbackslash hb hf hn hr ht hcontrol
  · subst hquote
    exact scan?_short rest rfl
  · subst hbackslash
    exact scan?_short rest rfl
  · subst hb
    exact scan?_short rest rfl
  · subst hf
    exact scan?_short rest rfl
  · subst hn
    exact scan?_short rest rfl
  · subst hr
    exact scan?_short rest rfl
  · subst ht
    exact scan?_short rest rfl
  · have hchar : Char.ofNat (16 * (c.toNat / 16) + c.toNat % 16) = c := by
      rw [Nat.div_add_mod]
      exact Char.ofNat_toNat c
    have hzero : '0' = Text.Hex.digit 0 := rfl
    rw [hzero, List.cons_append, List.cons_append, List.cons_append, List.cons_append,
      List.cons_append, List.cons_append, List.nil_append, scan?_cons_quiet _ rfl,
      scan?_cons_quiet _ rfl, scan?_cons_quiet _ (step?_unit (by omega)), if_neg (by decide),
      scan?_cons_quiet _ (step?_unit (by omega)), if_neg (by decide),
      scan?_cons_quiet _ (step?_unit (by omega)), if_neg (by decide),
      scan?_cons_quiet _ (step?_unit (by omega)), if_pos (by decide), pushUnit_of_lt (by omega)]
    simp only [Nat.mul_zero, Nat.zero_add]
    rw [hchar, push_ofChars]
  · refine scan?_cons_quiet rest ?_
    simp [step?, hquote, hbackslash, hcontrol, push_ofChars]

theorem scan?_escapes (s cs rest : List Char) :
    scan? (.text (.ofChars cs)) (s.flatMap escape ++ rest) =
      scan? (.text (.ofChars (s.reverse ++ cs))) rest := by
  induction s generalizing cs with
  | nil => rfl
  | cons c s ih =>
    rw [List.flatMap_cons, List.append_assoc, scan?_escape, ih, List.reverse_cons,
      List.append_assoc, List.singleton_append]

theorem scan?_quote (s : String) (rest : List Char) :
    scan? .between ((quote s).toList ++ rest) =
      (scan? .between rest).map ([.text (some s)] ++ ·) := by
  have hend :
      step? (.text (.ofChars (s.toList.reverse ++ []))) '"' =
        some ([.text (some s)], .between) := by
    simp [step?, value_ofChars]
  have hstart : step? .between '"' = some ([], .text (.ofChars [])) := rfl
  rw [quote, String.toList_ofList, List.append_assoc, List.cons_append, scan?_cons_quiet _ hstart,
    scan?_escapes, List.singleton_append, scan?_cons rest hend]

def entryText (entry : String × String) : String := "  " ++ quote entry.1 ++ ": " ++ quote entry.2

def ofEntry (entry : String × String) : List Token :=
  [.text (some entry.1), .colon, .text (some entry.2)]

theorem scan?_entry (entry : String × String) (rest : List Char) :
    scan? .between ((entryText entry).toList ++ rest) =
      (scan? .between rest).map (ofEntry entry ++ ·) := by
  have hblank (cs : List Char) : scan? .between (' ' :: cs) = scan? .between cs :=
    scan?_cons_quiet cs rfl
  have hindent : "  ".toList = [' ', ' '] := rfl
  have hmiddle : ": ".toList = [':', ' '] := rfl
  have hcolon : step? .between ':' = some ([.colon], .between) := rfl
  simp only [entryText, String.toList_append, hindent, hmiddle, List.append_assoc, List.cons_append,
    List.nil_append]
  rw [hblank, hblank, scan?_quote, scan?_cons _ hcolon, hblank, scan?_quote, Option.map_map,
    Option.map_map]
  rfl

theorem scan?_entries (entries : List (String × String)) (rest : List Char) :
    scan? .between ((String.intercalate ",\n" (entries.map entryText)).toList ++ rest) =
      (scan? .between rest).map ([Token.comma].intercalate (entries.map ofEntry) ++ ·) := by
  have hblank (cs : List Char) : scan? .between ('\n' :: cs) = scan? .between cs :=
    scan?_cons_quiet cs rfl
  have hbreak : ",\n".toList = [',', '\n'] := rfl
  have hcomma : step? .between ',' = some ([.comma], .between) := rfl
  induction entries with
  | nil => simp
  | cons entry entries ih =>
    cases entries with
    | nil => simpa using scan?_entry entry rest
    | cons next entries =>
      rw [List.map_cons] at ih
      rw [List.map_cons, List.map_cons, String.intercalate_cons_cons, String.toList_append,
        String.toList_append, List.append_assoc, List.append_assoc, scan?_entry, hbreak,
        List.cons_append, scan?_cons _ hcomma, List.singleton_append, hblank, ih]
      simp [Option.map_map, Function.comp_def]

theorem ofText?_textsText (entries : List (String × String)) :
    ofText? (textsText entries) =
      some (.openBrace :: ([Token.comma].intercalate (entries.map ofEntry) ++ [.closeBrace])) := by
  have hblank (cs : List Char) : scan? .between ('\n' :: cs) = scan? .between cs :=
    scan?_cons_quiet cs rfl
  have hopen : step? .between '{' = some ([.openBrace], .between) := rfl
  cases entries with
  | nil => rfl
  | cons entry entries =>
    have htext : (textsText (entry :: entries)).toList =
        '{' :: '\n' ::
            ((String.intercalate ",\n" ((entry :: entries).map entryText)).toList ++
            ['\n', '}']) := by
      change ("\x7b\n" ++ String.intercalate ",\n" ((entry :: entries).map entryText) ++
        "\n\x7d").toList = _
      simp [String.toList_append]
    rw [ofText?, htext, scan?_cons _ hopen, hblank, scan?_entries, hblank]
    rfl

end Token

namespace Value

open Token

def ofTexts (entries : List (String × String)) : Value :=
  .object (entries.map fun (key, value) ↦ (some key, .text (some value)))

theorem tokens_ofTexts (entries : List (String × String)) :
    (ofTexts entries).tokens =
      .openBrace :: ([Token.comma].intercalate (entries.map Token.ofEntry) ++ [.closeBrace]) := by
  have hentry (entry : String × String) :
      entryTokens (some entry.1, .text (some entry.2)) = Token.ofEntry entry := by
    rw [entryTokens, tokens]
    rfl
  simp [ofTexts, tokens_object, hentry, Function.comp_def]

theorem parse?_textsText (entries : List (String × String)) :
    parse? (textsText entries) = some (ofTexts entries) := by
  rw [parse?_eq_some_iff, ofText?_textsText, tokens_ofTexts]

theorem texts?_ofTexts (entries : List (String × String)) :
    texts? (ofTexts entries) = some entries := by
  induction entries with
  | nil => rfl
  | cons entry entries ih =>
    rw [ofTexts, texts?] at ih ⊢
    rw [List.map_cons, List.mapM_cons, ih]
    rfl

/-- Any texts under any keys are read back as they were written, in their order. -/
theorem texts?_of_textsText (entries : List (String × String)) :
    (parse? (textsText entries)).bind texts? = some entries := by
  rw [parse?_textsText, Option.bind_some, texts?_ofTexts]

end Value

end ValidatorClient.Json
