import ValidatorClient.Proofs.Json.Value
import ValidatorClient.Proofs.Text.Blank
import ValidatorClient.Proofs.Text.Letters
import ValidatorClient.Signer.Device

namespace ValidatorClient.Helper

open Text

variable {output line bytes : Bytes} {s t text name : String}
  {entries : List (Option String × Json.Value)} {r : Reply} {v : Json.Value} {field : Option String}
  {c : Char}

def IsFirstLine (output line : Bytes) : Prop :=
  10 ∉ line ∧ (output = line ∨ ∃ rest, output = line ++ 10 :: rest)

theorem exists_isFirstLine (output : Bytes) : ∃ line, IsFirstLine output line := by
  induction output with
  | nil => exact ⟨[], nofun, .inl rfl⟩
  | cons b output ih =>
    by_cases hb : b = 10
    · subst hb
      exact ⟨[], nofun, .inr ⟨output, rfl⟩⟩
    · obtain ⟨line, hline, hrest⟩ := ih
      refine ⟨b :: line, List.not_mem_cons_of_ne_of_not_mem (Ne.symm hb) hline, ?_⟩
      rcases hrest with rfl | ⟨rest, rfl⟩
      · exact .inl rfl
      · exact .inr ⟨rest, rfl⟩

theorem firstLine_append {rest : Bytes} (h : 10 ∉ line) :
    firstLine (line ++ rest) = line ++ firstLine rest := by
  induction line with
  | nil => rfl
  | cons b line ih =>
    rw [List.cons_append, firstLine, if_neg (Ne.symm (List.ne_of_not_mem_cons h)),
      ih (List.not_mem_of_not_mem_cons h), List.cons_append]

theorem IsFirstLine.firstLine_eq (h : IsFirstLine output line) :
    firstLine output = line ∨ firstLine output = line ++ [10] := by
  obtain ⟨hline, rfl | ⟨rest, rfl⟩⟩ := h
  · have h : firstLine (output ++ []) = output ++ firstLine [] := firstLine_append hline
    rw [List.append_nil] at h
    exact .inl (h.trans (List.append_nil _))
  · exact .inr (firstLine_append hline)

theorem exists_encodeChar_concat (h : 0x80 ≤ c.toNat) :
    ∃ bytes, Utf8.encodeChar c = bytes ++ [UInt8.ofNat (0x80 + c.toNat % 64)] := by
  rw [Utf8.encodeChar, if_neg (by omega)]
  by_cases h2 : c.toNat < 0x800
  · exact ⟨[_], if_pos h2⟩
  by_cases h3 : c.toNat < 0x10000
  · exact ⟨[_, _], by rw [if_neg h2, if_pos h3]; rfl⟩
  · exact ⟨[_, _, _], by rw [if_neg h2, if_neg h3]; rfl⟩

theorem eq_newline_of_encodeChar (h : Utf8.encodeChar c = bytes ++ [10]) :
    c = '\n' ∧ bytes = [] := by
  by_cases hc : c.toNat < 0x80
  · rw [Utf8.encodeChar_of_lt hc, ← List.nil_append [UInt8.ofNat c.toNat]] at h
    obtain ⟨hbytes, hbyte⟩ := List.append_singleton_inj.1 h
    have hten := congrArg UInt8.toNat hbyte
    rw [Utf8.toNat_ofNat_byte (by omega)] at hten
    exact ⟨Char.toNat_inj.1 hten, hbytes.symm⟩
  · obtain ⟨bytes', h'⟩ := exists_encodeChar_concat (Nat.not_lt.1 hc)
    have hten := congrArg UInt8.toNat (List.append_singleton_inj.1 (h'.symm.trans h)).2
    rw [Utf8.toNat_ofNat_byte (by omega)] at hten
    have hvalue : (10 : UInt8).toNat = 10 := rfl
    omega

theorem encode_newline (s : String) : Utf8.encode (s ++ "\n") = Utf8.encode s ++ [10] := by
  rw [Utf8.encode, String.toList_append, Utf8.encodeChars, List.flatMap_append]
  rfl

theorem exists_of_encode_append (h : Utf8.encode text = line ++ [10]) :
    ∃ s, text = s ++ "\n" ∧ Utf8.encode s = line := by
  rcases List.eq_nil_or_concat text.toList with hnil | ⟨cs, c, hcs⟩
  · rw [Utf8.encode, hnil] at h
    exact absurd h.symm (List.append_ne_nil_of_right_ne_nil line (List.cons_ne_nil 10 []))
  · obtain ⟨first, more, hfirst, -⟩ := Utf8.exists_encodeChar c
    rcases List.eq_nil_or_concat (Utf8.encodeChar c) with hnil | ⟨bytes, last, hlast⟩
    · cases hfirst.symm.trans hnil
    rw [List.concat_eq_append] at hcs hlast
    rw [Utf8.encode, hcs, Utf8.encodeChars, List.flatMap_append, List.flatMap_singleton, hlast,
      ← List.append_assoc] at h
    obtain ⟨hline, rfl⟩ := List.append_singleton_inj.1 h
    obtain ⟨rfl, rfl⟩ := eq_newline_of_encodeChar hlast
    refine ⟨String.ofList cs, String.toList_inj.1 ?_, ?_⟩
    · rw [hcs, String.toList_append, String.toList_ofList]
      rfl
    · rw [Utf8.encode, String.toList_ofList, ← hline, List.append_nil]
      rfl

theorem trim_newline (s : String) : Blank.trim (s ++ "\n") = Blank.trim s := by
  obtain ⟨before, after, hs, hbefore, hafter, hends⟩ := Blank.isTrimmed_trim s
  refine Blank.trim_eq_iff.2 ⟨before, after ++ ['\n'], ?_, hbefore, ?_, hends⟩
  · rw [String.toList_append, hs, List.append_assoc, List.append_assoc]
    rfl
  · exact List.forall_mem_append.2 ⟨hafter, List.forall_mem_singleton.2 rfl⟩

def Prints (output : Bytes) (t : String) : Prop :=
  ∃ line s, IsFirstLine output line ∧ Utf8.encode s = line ∧ Blank.IsTrimmed s t

theorem prints_iff :
    Prints output t ↔ ∃ text, Utf8.decode (firstLine output) = .ok text ∧ Blank.trim text = t := by
  simp only [Prints, Utf8.decode_eq_ok_iff, ← Blank.trim_eq_iff]
  constructor
  · intro h
    obtain ⟨line, s, hline, hs, htrim⟩ := h
    rcases hline.firstLine_eq with heq | heq
    · exact ⟨s, hs.trans heq.symm, htrim⟩
    · exact ⟨s ++ "\n", by rw [encode_newline, hs, heq], by rw [trim_newline, htrim]⟩
  · intro h
    obtain ⟨text, htext, htrim⟩ := h
    obtain ⟨line, hline⟩ := exists_isFirstLine output
    rcases hline.firstLine_eq with heq | heq
    · exact ⟨line, text, hline, htext.trans heq, htrim⟩
    · obtain ⟨s, rfl, hs⟩ := exists_of_encode_append (htext.trans heq)
      exact ⟨line, s, hline, hs, by rw [← trim_newline, htrim]⟩

inductive IsOptionalText : Json.Value → Option String → Prop
  | null : IsOptionalText .null none
  | text (s : String) : IsOptionalText (.text (some s)) (some s)

theorem optionalText?_eq_some_iff : v.optionalText? = some field ↔ IsOptionalText v field := by
  constructor
  · intro h
    unfold Json.Value.optionalText? at h
    split at h <;> cases h
    · exact .null
    · exact .text _
  · intro h
    cases h <;> rfl

/-- The field of this name: none if there is no entry of it, or the text in the only one. -/
inductive Stands (name : String) (entries : List (Option String × Json.Value)) :
    Option String → Prop
  | absent (h : ∀ entry ∈ entries, entry.1 ≠ some name) : Stands name entries none
  | once {before after : List (Option String × Json.Value)} {v : Json.Value} {field : Option String}
      (hentries : entries = before ++ (some name, v) :: after)
      (hbefore : ∀ entry ∈ before, entry.1 ≠ some name)
      (hafter : ∀ entry ∈ after, entry.1 ≠ some name) (hv : IsOptionalText v field) :
      Stands name entries field

theorem unique?_eq_some_iff : unique? name entries = some field ↔ Stands name entries field := by
  have hnil {entries : List (Option String × Json.Value)} :
      entries.filter (·.1 = some name) = [] ↔ ∀ entry ∈ entries, entry.1 ≠ some name := by
    rw [List.filter_eq_nil_iff]
    simp only [decide_eq_true_eq, ne_eq]
  constructor
  · intro h
    unfold unique? at h
    split at h
    case h_1 hfilter =>
      cases h
      exact .absent (hnil.1 hfilter)
    case h_2 name' v hfilter =>
      obtain ⟨before, after, hentries, hbefore, hname, hafter⟩ := List.filter_eq_cons_iff.1 hfilter
      obtain rfl : name' = some name := of_decide_eq_true hname
      refine .once hentries (fun entry hentry ↦ ?_) (hnil.1 hafter) (optionalText?_eq_some_iff.1 h)
      exact of_decide_eq_false (eq_false_of_ne_true (hbefore entry hentry))
    case h_3 => cases h
  · intro h
    unfold unique?
    cases h with
    | absent h => rw [hnil.2 h]
    | @once before after v _ hentries hbefore hafter hv =>
      have hone : ((some name, v) :: after).filter (·.1 = some name) = [(some name, v)] := by
        rw [List.filter_cons, if_pos (decide_eq_true rfl), hnil.2 hafter]
      rw [hentries, List.filter_append, hnil.2 hbefore, List.nil_append, hone]
      exact optionalText?_eq_some_iff.2 hv

/-- The value is this reply: an object of its fields by name, others among them, or the list of its
first fields in their order. -/
inductive Reply.IsOf : Json.Value → Reply → Prop
  | object {entries : List (Option String × Json.Value)} {r : Reply}
      (hkeys : ∀ entry ∈ entries, entry.1 ≠ none)
      (haddress : Stands "address" entries r.address)
      (hsignature : Stands "signature" entries r.signature)
      (herror : Stands "error" entries r.error) : IsOf (.object entries) r
  | array {items : List Json.Value} {fields : List (Option String)} {n : Nat} {r : Reply}
      (hitems : List.Forall₂ IsOptionalText items fields)
      (hfields : fields ++ List.replicate n none = [r.address, r.signature, r.error]) :
      IsOf (.array items) r

theorem Reply.ofValue?_object_eq_some_iff :
    ofValue? (.object entries) = some r ↔ IsOf (.object entries) r := by
  have hany : entries.any (·.1.isNone) = true ↔ ¬ ∀ entry ∈ entries, entry.1 ≠ none := by
    simp
  unfold ofValue?
  constructor
  · intro h
    dsimp only at h
    rcases ite_eq_iff.1 h with ⟨-, h⟩ | ⟨hkeys, h⟩
    · cases h
    · obtain ⟨a, haddress, h⟩ := Option.bind_eq_some_iff.1 h
      obtain ⟨s, hsignature, h⟩ := Option.bind_eq_some_iff.1 h
      obtain ⟨e, herror, h⟩ := Option.bind_eq_some_iff.1 h
      cases h
      rw [hany, not_not] at hkeys
      exact .object hkeys (unique?_eq_some_iff.1 haddress) (unique?_eq_some_iff.1 hsignature)
        (unique?_eq_some_iff.1 herror)
  · intro h
    cases h with
    | object hkeys haddress hsignature herror =>
      dsimp only
      rw [if_neg (fun h ↦ hany.1 h hkeys), unique?_eq_some_iff.2 haddress,
        unique?_eq_some_iff.2 hsignature, unique?_eq_some_iff.2 herror]
      rfl

theorem Reply.ofValue?_array_eq_some_iff {items : List Json.Value} :
    ofValue? (.array items) = some r ↔ IsOf (.array items) r := by
  have hitems {fields : List (Option String)} :
      items.mapM Json.Value.optionalText? = some fields ↔
          List.Forall₂ IsOptionalText items fields := by
    simp only [Json.Value.mapM_eq_some_iff, optionalText?_eq_some_iff]
  unfold ofValue?
  constructor
  · intro h
    obtain ⟨fields, hfields, h⟩ := Option.bind_eq_some_iff.1 h
    have hforall := hitems.1 hfields
    split at h <;> cases h
    · exact .array hforall (n := 3) rfl
    · exact .array hforall (n := 2) rfl
    · exact .array hforall (n := 1) rfl
    · exact .array hforall (n := 0) rfl
  · intro h
    obtain ⟨address, signature, error⟩ := r
    cases h with
    | @array _ fields n _ hforall hfields =>
      refine Option.bind_eq_some_iff.2 ⟨fields, hitems.2 hforall, ?_⟩
      have hlength := congrArg List.length hfields
      simp only [List.length_append, List.length_replicate, List.length_cons,
        List.length_nil] at hlength
      -- the fields that are left out are the last ones, so how many there are tells which
      match fields with
      | [] =>
        obtain rfl : n = 3 := by simpa using hlength
        cases hfields
        rfl
      | [a] =>
        obtain rfl : n = 2 := by simpa [Nat.add_comm] using hlength
        cases hfields
        rfl
      | [a, s] =>
        obtain rfl : n = 1 := by simpa [Nat.add_comm] using hlength
        cases hfields
        rfl
      | [a, s, e] =>
        obtain rfl : n = 0 := by simpa using hlength
        cases hfields
        rfl
      | _ :: _ :: _ :: _ :: more => simp at hlength; omega

theorem Reply.ofValue?_eq_some_iff : ofValue? v = some r ↔ IsOf v r := by
  cases v with
  | object entries => exact ofValue?_object_eq_some_iff
  | array items => exact ofValue?_array_eq_some_iff
  | _ => exact ⟨nofun, nofun⟩

def Replies (output : Bytes) (r : Reply) : Prop :=
  ∃ t v, Prints output t ∧ Json.Value.parse? t = some v ∧ Reply.IsOf v r

def IsFault (e : DeviceError) : Prop := ∃ reason, e = .unavailable reason ∨ e = .protocol reason

theorem isFault_iff {e : DeviceError} : IsFault e ↔ e ≠ .rejected := by
  cases e <;> simp [IsFault]

def Reply.checked (r : Reply) : Except DeviceError Reply :=
  match r.error with
  | none => .ok r
  | some "rejected" => .error .rejected
  | some other => .error (.unavailable other)

theorem Reply.checked_eq_ok_iff {r' : Reply} : r.checked = .ok r' ↔ r.error = none ∧ r' = r := by
  unfold checked
  split
  case h_1 h => simp [h, eq_comm]
  case h_2 h => simp [h]
  case h_3 h => simp [h]

theorem Reply.checked_eq_rejected_iff :
    r.checked = .error .rejected ↔ r.error = some "rejected" := by
  unfold checked
  split
  case h_1 h => simp [h]
  case h_2 h => simp [h]
  case h_3 hother h => exact ⟨nofun, fun heq ↦ (hother (Option.some.inj (h.symm.trans heq))).elim⟩

theorem reply_of_prints (hprints : Prints output t)
    (hread : (Json.Value.parse? t).bind Reply.ofValue? = some r) :
    reply (.printed output) = r.checked := by
  obtain ⟨text, htext, rfl⟩ := prints_iff.1 hprints
  have hempty : ¬ (Blank.trim text).isEmpty = true := by
    rw [String.isEmpty_iff]
    intro hempty
    rw [hempty] at hread
    cases hread
  unfold reply
  dsimp only
  rw [htext]
  dsimp only [bind, Except.bind, pure, Except.pure]
  rw [if_neg hempty, hread]
  rfl

theorem reply_of_replies (h : Replies output r) : reply (.printed output) = r.checked := by
  obtain ⟨t, v, hprints, hv, hr⟩ := h
  exact reply_of_prints hprints (by rw [hv, Option.bind_some, Reply.ofValue?_eq_some_iff.2 hr])

theorem exists_isFault (h : ∀ r, ¬ Replies output r) :
    ∃ e, reply (.printed output) = .error e ∧ IsFault e := by
  unfold reply
  dsimp only
  cases htext : Utf8.decode (firstLine output) with
  | error fault => exact ⟨_, rfl, _, .inl rfl⟩
  | ok text =>
    dsimp only [bind, Except.bind, pure, Except.pure]
    by_cases hempty : (Blank.trim text).isEmpty = true
    · rw [if_pos hempty]
      exact ⟨_, rfl, _, .inl rfl⟩
    · rw [if_neg hempty]
      cases hread : (Json.Value.parse? (Blank.trim text)).bind Reply.ofValue? with
      | none => exact ⟨_, rfl, _, .inr rfl⟩
      | some r =>
        obtain ⟨v, hv, hr⟩ := Option.bind_eq_some_iff.1 hread
        exact absurd ⟨_, v, prints_iff.2 ⟨text, htext, rfl⟩, hv,
          Reply.ofValue?_eq_some_iff.1 hr⟩ (h r)

theorem reply_eq_ok_iff : reply (.printed output) = .ok r ↔ Replies output r ∧ r.error = none := by
  constructor
  · intro h
    by_cases hreplies : ∃ r', Replies output r'
    · obtain ⟨r', hr'⟩ := hreplies
      rw [reply_of_replies hr', Reply.checked_eq_ok_iff] at h
      obtain ⟨herror, rfl⟩ := h
      exact ⟨hr', herror⟩
    · obtain ⟨e, he, -⟩ := exists_isFault (not_exists.1 hreplies)
      cases h.symm.trans he
  · intro h
    rw [reply_of_replies h.1, Reply.checked_eq_ok_iff]
    exact ⟨h.2, rfl⟩

theorem reply_eq_rejected_iff :
    reply (.printed output) = .error .rejected ↔
      ∃ r, Replies output r ∧ r.error = some "rejected" := by
  constructor
  · intro h
    by_cases hreplies : ∃ r, Replies output r
    · obtain ⟨r, hr⟩ := hreplies
      rw [reply_of_replies hr, Reply.checked_eq_rejected_iff] at h
      exact ⟨r, hr, h⟩
    · obtain ⟨e, he, hfault⟩ := exists_isFault (not_exists.1 hreplies)
      cases h.symm.trans he
      exact absurd rfl (isFault_iff.1 hfault)
  · intro h
    obtain ⟨r, hr, herror⟩ := h
    rw [reply_of_replies hr, Reply.checked_eq_rejected_iff, herror]

end ValidatorClient.Helper
