import ValidatorClient.Proofs.FileTree
import ValidatorClient.Proofs.Json.Bytes
import ValidatorClient.Signer.Reference

namespace ValidatorClient.KeyPair

open Text

variable {k : KeyPair} {bytes : Bytes} {files files' : FileTree} {path text : String}

/-- A secret in the first half, and its public key in the second. -/
def IsKeyPair (bytes : Bytes) : Prop :=
  bytes.length = 64 ∧ ∃ secret : Ed25519.Secret, secret.toList = bytes.take 32 ∧
    (Ed25519.publicKey secret).toList = bytes.drop 32

theorem take_bytes (k : KeyPair) : k.bytes.take 32 = k.secret.toList :=
  List.take_left' k.secret.length_eq

theorem drop_bytes (k : KeyPair) : k.bytes.drop 32 = k.publicKey.toList :=
  List.drop_left' k.secret.length_eq

theorem isKeyPair_bytes (k : KeyPair) : IsKeyPair k.bytes := by
  refine ⟨?_, k.secret, k.take_bytes.symm, ?_⟩
  · rw [bytes, List.length_append, k.secret.length_eq, k.publicKey.length_eq]
  · rw [drop_bytes, k.publicKey_eq]

theorem isKeyPair_iff : IsKeyPair bytes ↔ ∃ k : KeyPair, k.bytes = bytes := by
  constructor
  · intro h
    obtain ⟨-, secret, hsecret, hpublic⟩ := h
    refine ⟨ofSecret secret, ?_⟩
    rw [KeyPair.bytes, ofSecret, hsecret, hpublic, List.take_append_drop]
  · intro h
    obtain ⟨k, rfl⟩ := h
    exact k.isKeyPair_bytes

theorem ofBytes_bytes (k : KeyPair) : ofBytes k.bytes = .ok k := by
  rw [ofBytes, take_bytes, drop_bytes, FixedBytes.ofList?_toList, FixedBytes.ofList?_toList]
  exact dif_pos k.publicKey_eq

theorem ofBytes_eq_ok_iff : ofBytes bytes = .ok k ↔ k.bytes = bytes := by
  constructor
  · intro h
    unfold ofBytes at h
    split at h
    case h_1 secret publicKey hsecret hpublic =>
      split at h
      case isTrue hkey =>
        cases h
        rw [KeyPair.bytes, FixedBytes.ofList?_eq_some_iff.1 hsecret,
          FixedBytes.ofList?_eq_some_iff.1 hpublic, List.take_append_drop]
      case isFalse => cases h
    case h_2 => cases h
  · rintro rfl
    exact k.ofBytes_bytes

theorem load_eq_ok_iff : load files path = .ok k ↔
    ∃ text, files.read path = .ok (Utf8.encode text) ∧ Json.IsBytesText k.bytes text := by
  simp only [← FileTree.readText_eq_ok_iff, ← Json.bytes?_of_parse_eq_some_iff]
  unfold load
  cases htext : files.readText path with
  | error fault => simp
  | ok text =>
    simp only [Except.ok.injEq, exists_eq_left']
    cases (Json.Value.parse? text).bind Json.Value.bytes? with
    | none => simp
    | some bytes => rw [Option.some.injEq, eq_comm (a := bytes), ← ofBytes_eq_ok_iff]

theorem exists_load_eq_error
    (h : ∀ bytes text, IsKeyPair bytes → Json.IsBytesText bytes text →
      files.read path ≠ .ok (Utf8.encode text)) :
    ∃ fault, load files path = .error fault := by
  cases hload : load files path with
  | error fault => exact ⟨fault, rfl⟩
  | ok k =>
    obtain ⟨text, hread, htext⟩ := load_eq_ok_iff.1 hload
    exact absurd hread (h k.bytes text k.isKeyPair_bytes htext)

theorem load_of_save (h : (k.save path).apply files = (.ok (), files')) :
    load files' path = .ok k := by
  obtain ⟨_, saved, hsave, hmode⟩ := Change.bind_apply_eq_ok_iff.1 h
  have hread := FileTree.read_of_save (Change.adapt_apply_eq_ok_iff.1 hsave)
  have hread' := FileTree.read_of_setMode hread (Change.adapt_apply_eq_ok_iff.1 hmode)
  exact load_eq_ok_iff.2 ⟨_, hread', Json.isBytesText_bytesText k.bytes⟩

/-- Bytes are read as a key pair exactly if they are one, and are then what it is written as. A key
pair is the same after it was made from its bytes, and after it was saved under any path and loaded
from there. A file holds a key pair if its text is an array of the bytes of one, and any other is
refused as a signer. -/
theorem written_and_read (bytes : Bytes) (k : KeyPair) (path : String) (files : FileTree) :
    ((∃ k, ofBytes bytes = .ok k) ↔ IsKeyPair bytes) ∧
    (ofBytes bytes = .ok k → k.bytes = bytes) ∧
    (∀ secret, ofBytes (ofSecret secret).bytes = .ok (ofSecret secret)) ∧
    (∀ files', (k.save path).apply files = (.ok (), files') → load files' path = .ok k) ∧
    (load files path = .ok k ↔ ∃ text, files.read path = .ok (Utf8.encode text) ∧
      Json.IsBytesText k.bytes text) ∧
    ((∀ bytes text, IsKeyPair bytes → Json.IsBytesText bytes text →
        files.read path ≠ .ok (Utf8.encode text)) →
      ∃ fault, load files path = .error fault ∧ ∀ (σ : Type) (s : σ) hasDevice,
        (SignerReference.keyPairFile path).resolve hasDevice files s =
          .done s (.error (.invalidSignerInput fault))) := by
  refine ⟨?_, ofBytes_eq_ok_iff.1, fun secret ↦ (ofSecret secret).ofBytes_bytes,
    fun _ ↦ load_of_save, load_eq_ok_iff, fun h ↦ ?_⟩
  · simp only [ofBytes_eq_ok_iff, isKeyPair_iff]
  · obtain ⟨fault, hload⟩ := exists_load_eq_error h
    refine ⟨fault, hload, fun σ s hasDevice ↦ ?_⟩
    rw [SignerReference.resolve, hload]
    rfl

/-- The directories above a new file are made, and a file that holds something else is no signer
until it is written over. -/
theorem written_and_read_foreign :
    let k : KeyPair := ofSecret (.replicate 32 0)
    let foreign : FileTree.Entry := .file [0xFF] FileTree.defaultMode
    let files : FileTree := ⟨.directory [("etc", .directory [("id.json", foreign)])], ["etc"]⟩
    (∀ path ∈ ["/home/keys/id.json", "/etc/id.json", "../etc/id.json"],
      ∃ files', (k.save path).apply files = (.ok (), files') ∧ load files' path = .ok k) ∧
    ∃ fault, load files "/etc/id.json" = .error fault := by
  intro k foreign files
  constructor
  · intro path hpath
    have hsave : ∀ path ∈ ["/home/keys/id.json", "/etc/id.json", "../etc/id.json"],
        ((k.save path).apply files).1 = .ok () := by
      decide +kernel
    have hsaved : (k.save path).apply files = (.ok (), ((k.save path).apply files).2) :=
      Prod.ext (hsave path hpath) rfl
    exact ⟨_, hsaved, (written_and_read [] k path files).2.2.2.1 _ hsaved⟩
  · have hread : files.read "/etc/id.json" = .ok [0xFF] := by decide +kernel
    have hnot (text : String) : Utf8.encode text ≠ [0xFF] := by
      intro h
      have hdecode : (Utf8.decode [0xFF]).toOption = none := by decide +kernel
      rw [Utf8.decode_eq_ok_iff.2 h] at hdecode
      cases hdecode
    obtain ⟨fault, hload, -⟩ := (written_and_read [] k "/etc/id.json" files).2.2.2.2.2
      fun _ text _ _ h ↦ hnot text (Except.ok.inj (hread.symm.trans h)).symm
    exact ⟨fault, hload⟩

end ValidatorClient.KeyPair
