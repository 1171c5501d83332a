import ValidatorClient.Proofs.Except
import ValidatorClient.Proofs.Json.Written
import ValidatorClient.Proofs.Ledger.AddressText
import ValidatorClient.Proofs.Signer.DerivationPath
import ValidatorClient.Proofs.Signer.Reply
import ValidatorClient.Proofs.Text.Hex
import ValidatorClient.Signer.Hardware

namespace ValidatorClient.Helper

open Ledger Text

section Request

variable {s name value : String} {rest : List Char}

def entries : DeviceRequest → List (String × String)
  | .address path => [("op", "address"), ("path", path.toString)]
  | .sign path message => [("op", "sign"), ("path", path.toString), ("message", Hex.encode message)]

theorem newline_ne_digit : ∀ n < 16, '\n' ≠ Hex.digit n := by
  decide

theorem newline_not_mem_escape (c : Char) : '\n' ∉ Json.escape c := by
  unfold Json.escape
  split_ifs with _ _ _ _ hnewline _ _ hcontrol
  · decide
  · decide
  · decide
  · decide
  · decide
  · decide
  · decide
  · have hhigh := newline_ne_digit (c.toNat / 16) (by omega)
    have hlow := newline_ne_digit (c.toNat % 16) (by omega)
    simp [hhigh, hlow]
  · simpa using Ne.symm hnewline

theorem newline_not_mem_quote (s : String) : '\n' ∉ (Json.quote s).toList := by
  simp [Json.quote, newline_not_mem_escape]

theorem newline_not_mem_field (name value : String) : '\n' ∉ (field name value).toList := by
  simp [field, newline_not_mem_quote]

theorem newline_not_mem_line (request : DeviceRequest) : '\n' ∉ (line request).toList := by
  cases request <;> simp [line, newline_not_mem_field]

theorem scan?_field (name value : String) (rest : List Char) :
    Json.Token.scan? .between ((field name value).toList ++ rest) =
      (Json.Token.scan? .between rest).map
        ([.text (some name), .colon, .text (some value)] ++ ·) := by
  have hcolon : Json.Token.step? .between ':' = some ([.colon], .between) := rfl
  have hmiddle : ":".toList = [':'] := rfl
  rw [field, String.toList_append, String.toList_append, List.append_assoc, List.append_assoc,
    Json.Token.scan?_quote, hmiddle, List.singleton_append, Json.Token.scan?_cons _ hcolon,
    Json.Token.scan?_quote, Option.map_map, Option.map_map]
  rfl

theorem parse?_line (request : DeviceRequest) :
    Json.Value.parse? (line request) = some (Json.Value.ofTexts (entries request)) := by
  have hopen (cs : List Char) : Json.Token.scan? .between ("\x7b".toList ++ cs) =
      (Json.Token.scan? .between cs).map ([.openBrace] ++ ·) := Json.Token.scan?_cons cs rfl
  have hcomma (cs : List Char) : Json.Token.scan? .between (",".toList ++ cs) =
      (Json.Token.scan? .between cs).map ([.comma] ++ ·) := Json.Token.scan?_cons cs rfl
  have hclose : Json.Token.scan? .between "\x7d".toList = some [.closeBrace] := rfl
  rw [Json.Value.parse?_eq_some_iff, Json.Token.ofText?, Json.Value.tokens_ofTexts]
  cases request with
  | address path =>
    simp only [line, String.toList_append, List.append_assoc, hopen, scan?_field, hcomma, hclose]
    simp [entries, Json.Token.ofEntry]
  | sign path message =>
    simp only [line, String.toList_append, List.append_assoc, hopen, scan?_field, hcomma, hclose]
    simp [entries, Json.Token.ofEntry]

end Request

section Answer

variable {ε α : Type} {output : Bytes} {r : Reply} {a : α} {e : DeviceError}
  {Holds : Reply → α → Prop}

/-- The result is what a reply without an error holds. A refusal in the reply wins over all that it
holds besides, and anything else is a failure. -/
structure Answers (Holds : Reply → α → Prop) (rejected : ε) (IsFailure : ε → Prop) (output : Bytes)
    (result : Except ε α) : Prop where
  ok_iff : ∀ a, result = .ok a ↔ ∃ r, Replies output r ∧ r.error = none ∧ Holds r a
  rejected_iff : result = .error rejected ↔ ∃ r, Replies output r ∧ r.error = some "rejected"
  failure :
    (∀ r, Replies output r → r.error ≠ some "rejected" ∧ (r.error = none → ∀ a, ¬ Holds r a)) →
    ∃ e, result = .error e ∧ IsFailure e
  of_error : ∀ r, Replies output r → r.error ≠ none → ∀ a, result ≠ .ok a

theorem answers_of_reply {f : Reply → Except DeviceError α} (hok : ∀ r a, f r = .ok a ↔ Holds r a)
    (hfault : ∀ r e, f r = .error e → IsFault e) :
    Answers Holds .rejected IsFault output (reply (.printed output) >>= f) := by
  have hanswer (a : α) :
      reply (.printed output) >>= f = .ok a ↔
          ∃ r, Replies output r ∧ r.error = none ∧ Holds r a := by
    simp only [Except.bind_eq_ok_iff, reply_eq_ok_iff, hok, and_assoc]
  have hrejected :
      reply (.printed output) >>= f = .error .rejected ↔
          ∃ r, Replies output r ∧ r.error = some "rejected" := by
    rw [Except.bind_eq_error_iff, reply_eq_rejected_iff, or_iff_left]
    rintro ⟨r, -, h⟩
    exact isFault_iff.1 (hfault r _ h) rfl
  refine ⟨hanswer, hrejected, fun h ↦ ?_, fun r hr herror a ha ↦ ?_⟩
  · cases hresult : reply (.printed output) >>= f with
    | ok a =>
      obtain ⟨r, hr, herror, ha⟩ := (hanswer a).1 hresult
      exact absurd ha ((h r hr).2 herror a)
    | error e =>
      refine ⟨e, rfl, isFault_iff.2 fun he ↦ ?_⟩
      rw [he] at hresult
      obtain ⟨r, hr, herror⟩ := hrejected.1 hresult
      exact (h r hr).1 herror
  · obtain ⟨r', hreply, -⟩ := Except.bind_eq_ok_iff.1 ha
    rw [reply_of_replies hr, Reply.checked_eq_ok_iff] at hreply
    exact herror hreply.1

def HoldsSignature (r : Reply) (s : Signature) : Prop :=
  ∃ text, r.signature = some text ∧ text.toLower = Hex.encode s.toList

def HoldsAddress (r : Reply) (a : Address) : Prop :=
  ∃ text, r.address = some text ∧ Base58.decode text = .ok a.toList

theorem answers_signature (output : Bytes) :
    Answers HoldsSignature .rejected IsFault output (signature (.printed output)) := by
  refine answers_of_reply (fun r s ↦ ?_) (fun r e h ↦ ?_)
  · unfold HoldsSignature
    simp only [← Hex.decode_encode_eq_ok_iff]
    cases r.signature with
    | none => simp
    | some text =>
      simp only [Option.some.injEq, exists_eq_left']
      cases Hex.decode (Utf8.encode text) with
      | error e => simp
      | ok bytes =>
        dsimp only
        rw [Except.ok.injEq, eq_comm (a := bytes), ← FixedBytes.ofList?_eq_some_iff]
        cases FixedBytes.ofList? 64 bytes <;> simp [pure, Except.pure]
  · split at h
    · cases h
      exact ⟨_, .inr rfl⟩
    · split at h
      · cases h
        exact ⟨_, .inr rfl⟩
      · split at h <;> cases h
        exact ⟨_, .inr rfl⟩

theorem answers_address (output : Bytes) :
    Answers HoldsAddress .rejected IsFault output (address (.printed output)) := by
  refine answers_of_reply (fun r a ↦ ?_) (fun r e h ↦ ?_)
  · unfold HoldsAddress
    simp only [← Address.parse_eq_ok_iff_decode]
    cases r.address with
    | none => simp
    | some text =>
      simp only [Option.some.injEq, exists_eq_left']
      cases Address.parse text <;> simp [pure, Except.pure]
  · split at h
    · cases h
      exact ⟨_, .inr rfl⟩
    · split at h <;> cases h
      exact ⟨_, .inr rfl⟩

def IsUnavailable (e : ClientError) : Prop :=
  ∃ cause, IsFault cause ∧ e = .signerUnavailable (.device cause)

theorem Answers.ofDevice {result : Except DeviceError α}
    (h : Answers Holds .rejected IsFault output result) :
    Answers Holds (.signerRejected .device) IsUnavailable output
      (result.mapError ClientError.ofDevice) := by
  have hrejected {e : DeviceError} :
      ClientError.ofDevice e = .signerRejected .device ↔ e = .rejected := by
    cases e <;> simp [ClientError.ofDevice]
  have hfault {e : DeviceError} (he : IsFault e) :
      ClientError.ofDevice e = .signerUnavailable (.device e) := by
    obtain ⟨_, rfl | rfl⟩ := he <;> rfl
  refine ⟨fun a ↦ ?_, ?_, fun hr ↦ ?_, fun r hr herror a ↦ ?_⟩
  · rw [Except.mapError_eq_ok_iff, h.ok_iff]
  · simp only [Except.mapError_eq_error_iff, hrejected, exists_eq_right, h.rejected_iff]
  · obtain ⟨e, he, hfails⟩ := h.failure hr
    exact ⟨_, Except.mapError_eq_error_iff.2 ⟨e, he, rfl⟩, e, hfails, hfault hfails⟩
  · rw [ne_eq, Except.mapError_eq_ok_iff]
    exact h.of_error r hr herror a

theorem answers_key (k : HardwareKey) (output : Bytes) :
    Answers HoldsSignature (.signerRejected .device) IsUnavailable
    output (k.signature (some (signature (.printed output)))) := by
  have h := (answers_signature output).ofDevice
  cases hresult : signature (.printed output) <;> rwa [hresult] at h

theorem answers_connect (path : DerivationPath) (output : Bytes) :
    Answers HoldsAddress (.signerRejected .device) IsUnavailable output
      ((HardwareKey.connect path (some (address (.printed output)))).map HardwareKey.address) := by
  have h := (answers_address output).ofDevice
  cases hresult : address (.printed output) <;> rwa [hresult] at h

end Answer

/-- A request is one line, from which the operation, the path of the slot and the message are read.
Whatever is printed, a signature or an address is given exactly if the first line has a reply that
holds it, and no error. A reply that says that it was rejected is a refusal, whatever it holds
besides, and all else is a failure, also for the signer. -/
theorem exchange_exact (path : DerivationPath) (message output : Bytes) (k : HardwareKey) :
    (∀ request, '\n' ∉ (line request).toList) ∧
    (Json.Value.parse? (line (.address path))).bind Json.Value.texts? =
      some [("op", "address"), ("path", path.toString)] ∧
    (Json.Value.parse? (line (.sign path message))).bind Json.Value.texts? =
      some [("op", "sign"), ("path", path.toString), ("message", Hex.encode message)] ∧
    path.toString = "m/44'/501'/" ++ Nat.repr path.slot.toNat ++ "'" ∧
    Hex.decode (Utf8.encode (Hex.encode message)) = .ok message ∧
    Answers HoldsSignature .rejected IsFault output (signature (.printed output)) ∧
    Answers HoldsAddress .rejected IsFault output (address (.printed output)) ∧
    Answers HoldsSignature (.signerRejected .device) IsUnavailable output
      (k.signature (some (signature (.printed output)))) ∧
    Answers HoldsAddress (.signerRejected .device) IsUnavailable output
      ((HardwareKey.connect path (some (address (.printed output)))).map HardwareKey.address) := by
  have hline (request : DeviceRequest) :
      (Json.Value.parse? (line request)).bind Json.Value.texts? = some (entries request) := by
    rw [parse?_line, Option.bind_some, Json.Value.texts?_ofTexts]
  exact ⟨newline_not_mem_line, hline (.address path), hline (.sign path message), path.toString_eq,
    Hex.decode_encode message, answers_signature output, answers_address output,
    answers_key k output, answers_connect path output⟩

/-- The signature in a reply that has an error is not looked at. -/
example :
    signature (.printed (Utf8.encode "\x7b\"signature\":\"00\",\"error\":\"rejected\"\x7d\n")) =
    .error .rejected := by
  decide +kernel

end ValidatorClient.Helper
