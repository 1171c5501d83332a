import ValidatorClient.Proofs.Ledger.AddressText
import ValidatorClient.Proofs.Process
import ValidatorClient.Proofs.Text.Blank
import ValidatorClient.Proofs.Text.Letters
import ValidatorClient.Proofs.Text.Numeral
import ValidatorClient.Signer.Reference

namespace ValidatorClient.SignerReference

open Ledger Text

variable {text t slot : String} {n : UInt32} {fault : SignerInputFault} {cs rest marks : List Char}

/-- The text is the mark of a device, in letters of either case, and this after it. -/
def IsMarked (t slot : String) : Prop :=
  ∃ mark : String, mark.toLower = "ledger://" ∧ t = mark ++ slot

theorem dropMark?_eq_some_iff :
    dropMark? marks cs = some rest ↔ ∃ mark, mark.map Char.toLower = marks ∧ cs = mark ++ rest := by
  induction marks generalizing cs with
  | nil => simp [dropMark?]
  | cons m marks ih =>
    cases cs with
    | nil => simp [dropMark?]
    | cons c cs =>
      rw [dropMark?]
      by_cases hc : c.toLower = m
      · rw [if_pos hc, ih]
        constructor
        · intro h
          obtain ⟨mark, rfl, rfl⟩ := h
          exact ⟨c :: mark, by rw [List.map_cons, hc], rfl⟩
        · intro h
          obtain ⟨mark, hmark, hcs⟩ := h
          obtain ⟨d, mark, rfl, -, rfl⟩ := List.map_eq_cons_iff.1 hmark
          cases hcs
          exact ⟨mark, rfl, rfl⟩
      · rw [if_neg hc]
        refine ⟨nofun, fun h ↦ ?_⟩
        obtain ⟨mark, hmark, hcs⟩ := h
        obtain ⟨d, mark, rfl, hd, -⟩ := List.map_eq_cons_iff.1 hmark
        cases hcs
        exact absurd hd hc

theorem toLower_eq_iff {mark : String} :
    mark.toLower = "ledger://" ↔ mark.toList.map Char.toLower = deviceMark := by
  rw [← String.toList_inj, Utf8.toList_toLower]
  rfl

theorem isMarked_iff :
    IsMarked t slot ↔ ∃ mark, mark.map Char.toLower = deviceMark ∧
      t.toList = mark ++ slot.toList := by
  constructor
  · intro h
    obtain ⟨mark, hlower, rfl⟩ := h
    exact ⟨mark.toList, toLower_eq_iff.1 hlower, String.toList_append⟩
  · intro h
    obtain ⟨mark, hlower, ht⟩ := h
    refine ⟨String.ofList mark, toLower_eq_iff.2 (by rwa [String.toList_ofList]),
      String.toList_inj.1 ?_⟩
    rw [ht, String.toList_append, String.toList_ofList]

theorem slotText?_eq_some_iff : slotText? t = some slot ↔ IsMarked t slot := by
  rw [slotText?, Option.map_eq_some_iff, isMarked_iff, ← dropMark?_eq_some_iff]
  constructor
  · intro h
    obtain ⟨rest, hdrop, rfl⟩ := h
    rwa [String.toList_ofList]
  · exact fun h ↦ ⟨slot.toList, h, String.ofList_toList⟩

/-- The mark has nine bytes, and no text of which these are the first is without it. -/
theorem isMarked_iff_bytes : IsMarked t slot ↔
    ∃ head, head.map Utf8.smallLetter = Utf8.encode "ledger://" ∧
      Utf8.encode t = head ++ Utf8.encode slot := by
  have hmark : deviceMark.all (·.toNat < 0x80) = true := rfl
  rw [isMarked_iff]
  exact Utf8.exists_mark_iff fun m hm ↦ of_decide_eq_true (List.all_eq_true.1 hmark m hm)

theorem slotText?_eq_none_iff : slotText? t = none ↔ ∀ slot, ¬ IsMarked t slot := by
  rw [Option.eq_none_iff_forall_ne_some]
  exact forall_congr' fun slot ↦ not_congr slotText?_eq_some_iff

theorem IsMarked.ne_empty (h : IsMarked t slot) : t ≠ "" := by
  rintro rfl
  cases slotText?_eq_some_iff.2 h

section Parse

variable (ht : Blank.trim text = t)

include ht

theorem parse_of_empty (h : t = "") : parse text = .error .emptyReference := by
  rw [parse, ht, h]
  rfl

theorem parse_of_unmarked (hne : t ≠ "") (h : ∀ slot, ¬ IsMarked t slot) :
    parse text = .ok (.keyPairFile t) := by
  have hempty : ¬ t.isEmpty = true := by rwa [String.isEmpty_iff]
  rw [parse, ht, if_neg hempty, slotText?_eq_none_iff.2 h]

theorem parse_of_marked (h : IsMarked t slot) : parse text =
    ((Numeral.parse 0x100000000 slot).map fun n ↦ device (UInt32.ofNat n)).mapError
      (.badSlot slot) := by
  have hempty : ¬ t.isEmpty = true := by
    rw [String.isEmpty_iff]
    exact h.ne_empty
  rw [parse, ht, if_neg hempty, slotText?_eq_some_iff.2 h]
  dsimp only
  cases Numeral.parse 0x100000000 slot <;> rfl

theorem parse_of_denotes (h : IsMarked t slot) (hn : Numeral.Denotes slot n.toNat) :
    parse text = .ok (.device n) := by
  rw [parse_of_marked ht h, (Numeral.parse_eq_ok_iff (by decide)).2 ⟨hn, n.toNat_lt⟩]
  exact congrArg (fun n ↦ Except.ok (device n)) UInt32.ofNat_toNat

theorem parse_of_not_denotes (h : IsMarked t slot)
    (hn : ∀ n : UInt32, ¬ Numeral.Denotes slot n.toNat) :
    ∃ fault, parse text = .error (.badSlot slot fault) := by
  rw [parse_of_marked ht h]
  cases hslot : Numeral.parse 0x100000000 slot with
  | error fault => exact ⟨fault, rfl⟩
  | ok m =>
    obtain ⟨hm, hlt⟩ := (Numeral.parse_eq_ok_iff (by decide)).1 hslot
    refine absurd hm ?_
    rw [← UInt32.toNat_ofNat_of_lt hlt]
    exact hn _

theorem parse_cases :
    (t ≠ "" ∧ (∀ slot, ¬ IsMarked t slot) ∧ parse text = .ok (.keyPairFile t)) ∨
    (∃ slot n, IsMarked t slot ∧ Numeral.Denotes slot n.toNat ∧ parse text = .ok (.device n)) ∨
    ((t = "" ∨ ∃ slot, IsMarked t slot ∧ ∀ n : UInt32, ¬ Numeral.Denotes slot n.toNat) ∧
      ∃ fault, parse text = .error fault) := by
  by_cases hempty : t = ""
  · exact .inr (.inr ⟨.inl hempty, _, parse_of_empty ht hempty⟩)
  by_cases hmarked : ∃ slot, IsMarked t slot
  · obtain ⟨slot, hmarked⟩ := hmarked
    by_cases hn : ∃ n : UInt32, Numeral.Denotes slot n.toNat
    · obtain ⟨n, hn⟩ := hn
      exact .inr (.inl ⟨slot, n, hmarked, hn, parse_of_denotes ht hmarked hn⟩)
    · obtain ⟨fault, hfault⟩ := parse_of_not_denotes ht hmarked (not_exists.1 hn)
      exact .inr (.inr ⟨.inr ⟨slot, hmarked, not_exists.1 hn⟩, _, hfault⟩)
  · exact .inl ⟨hempty, not_exists.1 hmarked, parse_of_unmarked ht hempty (not_exists.1 hmarked)⟩

theorem parse_eq_device_iff :
    parse text = .ok (.device n) ↔ ∃ slot, IsMarked t slot ∧ Numeral.Denotes slot n.toNat := by
  constructor
  · intro h
    rcases parse_cases ht with ⟨-, -, hfile⟩ | ⟨slot, m, hmarked, hm, hdevice⟩ | ⟨-, fault, hfault⟩
    · cases h.symm.trans hfile
    · cases h.symm.trans hdevice
      exact ⟨slot, hmarked, hm⟩
    · cases h.symm.trans hfault
  · intro h
    obtain ⟨slot, hmarked, hn⟩ := h
    exact parse_of_denotes ht hmarked hn

theorem exists_parse_eq_error_iff : (∃ fault, parse text = .error fault) ↔
    t = "" ∨ ∃ slot, IsMarked t slot ∧ ∀ n : UInt32, ¬ Numeral.Denotes slot n.toNat := by
  constructor
  · intro h
    obtain ⟨fault, h⟩ := h
    rcases parse_cases ht with ⟨-, -, hfile⟩ | ⟨_, _, -, -, hdevice⟩ | ⟨hbad, -⟩
    · cases h.symm.trans hfile
    · cases h.symm.trans hdevice
    · exact hbad
  · intro h
    rcases h with hempty | ⟨slot, hmarked, hn⟩
    · exact ⟨_, parse_of_empty ht hempty⟩
    · obtain ⟨fault, hfault⟩ := parse_of_not_denotes ht hmarked hn
      exact ⟨_, hfault⟩

theorem parse_eq_keyPairFile_iff {path : String} :
    parse text = .ok (.keyPairFile path) ↔ path = t ∧ t ≠ "" ∧ ∀ slot, ¬ IsMarked t slot := by
  constructor
  · intro h
    rcases parse_cases ht with ⟨hne, hmarked, hfile⟩ | ⟨_, _, -, -, hdevice⟩ | ⟨-, fault, hfault⟩
    · cases h.symm.trans hfile
      exact ⟨rfl, hne, hmarked⟩
    · cases h.symm.trans hdevice
    · cases h.symm.trans hfault
  · intro h
    rw [h.1]
    exact parse_of_unmarked ht h.2.1 h.2.2

theorem parse_trimmed : parse t = parse text := by
  have htrim : Blank.trim t = t := by rw [← ht, Blank.trim_trim]
  rw [parse, parse, htrim, ht]

end Parse

section Load

variable {σ : Type} {s : σ} {hasDevice : Bool} {files : FileTree}

theorem load_of_error (h : parse text = .error fault) :
    load hasDevice files text s = .done s (.error (.invalidSignerInput fault)) := by
  rw [load, h]
  rfl

variable (ht : Blank.trim text = t)

include ht

theorem loadAddress_of_marked (h : IsMarked t slot) :
    loadAddress hasDevice files text s = (do return (← load hasDevice files t).address) s := by
  rw [loadAddress, ht, slotText?_eq_some_iff.2 h]
  rfl

theorem loadAddress_of_badSlot (h : IsMarked t slot) (hfault : parse text = .error fault) :
    loadAddress hasDevice files text s = .done s (.error (.invalidSignerInput fault)) := by
  rw [loadAddress_of_marked ht h, Attempt.bind_apply,
    load_of_error ((parse_trimmed ht).trans hfault)]
  rfl

theorem loadAddress_of_device (h : parse text = .ok (.device n)) :
    loadAddress true files text s = .wait s (.deviceAddress ⟨n⟩ defaultDeviceTimeout) fun answer ↦
      .done s ((HardwareKey.connect ⟨n⟩ answer).map HardwareKey.address) := by
  obtain ⟨slot, hmarked, -⟩ := (parse_eq_device_iff ht).1 h
  rw [loadAddress_of_marked ht hmarked, Attempt.bind_apply, load, parse_trimmed ht, h]
  refine congrArg (Process.wait s _) (funext fun answer ↦ ?_)
  change Process.bind _ (.done s ((HardwareKey.connect ⟨n⟩ answer).map LoadedSigner.hardware)) = _
  cases HardwareKey.connect ⟨n⟩ answer <;> rfl

theorem loadAddress_of_noDevice (h : parse text = .ok (.device n)) :
    loadAddress false files text s = .done s (.error (.signerUnavailable .noTransport)) := by
  obtain ⟨slot, hmarked, -⟩ := (parse_eq_device_iff ht).1 h
  rw [loadAddress_of_marked ht hmarked, Attempt.bind_apply, load, parse_trimmed ht, h]
  rfl

theorem loadAddress_of_address (h : ∀ slot, ¬ IsMarked t slot) {a : Address}
    (ha : Base58.decode t = .ok a.toList) :
    loadAddress hasDevice files text s = .done s (.ok a) := by
  rw [loadAddress, ht, slotText?_eq_none_iff.2 h, Address.parse_eq_ok_iff_decode.2 ha]
  rfl

theorem loadAddress_of_file (h : ∀ slot, ¬ IsMarked t slot)
    (ha : ∀ a : Address, Base58.decode t ≠ .ok a.toList) :
    loadAddress hasDevice files text s =
      .done s (((KeyPair.load files t).map KeyPair.address).mapError
        fun cause ↦ .invalidSignerInput (.neither t cause)) := by
  rw [loadAddress, ht, slotText?_eq_none_iff.2 h]
  cases hparse : Address.parse t with
  | ok a => exact absurd (Address.parse_eq_ok_iff_decode.1 hparse) (ha a)
  | error e => cases KeyPair.load files t <;> rfl

theorem exists_done_of_unmarked (h : ∀ slot, ¬ IsMarked t slot) :
    ∃ result, loadAddress hasDevice files text s = .done s result := by
  by_cases ha : ∃ a : Address, Base58.decode t = .ok a.toList
  · obtain ⟨a, ha⟩ := ha
    exact ⟨_, loadAddress_of_address ht h ha⟩
  · exact ⟨_, loadAddress_of_file ht h (not_exists.1 ha)⟩

theorem exists_done (h : ¬ (hasDevice = true ∧ ∃ n, parse text = .ok (.device n))) :
    ∃ result, loadAddress hasDevice files text s = .done s result := by
  by_cases hmarked : ∃ slot, IsMarked t slot
  · obtain ⟨slot, hmarked⟩ := hmarked
    rcases parse_cases ht with ⟨-, hnot, -⟩ | ⟨_, n, -, -, hdevice⟩ | ⟨-, fault, hfault⟩
    · exact absurd hmarked (hnot slot)
    · cases hasDevice with
      | false => exact ⟨_, loadAddress_of_noDevice ht hdevice⟩
      | true => exact absurd ⟨rfl, n, hdevice⟩ h
    · exact ⟨_, loadAddress_of_badSlot ht hmarked hfault⟩
  · exact exists_done_of_unmarked ht (not_exists.1 hmarked)

theorem asks_iff {exchanges : List Exchange} {s' : σ} {r : Option (Except ClientError Address)}
    (h : (loadAddress hasDevice files text s).Trace exchanges s' r) :
    (∃ e ∈ exchanges, ∃ path timeout, e.query = .deviceAddress path timeout) ↔
      hasDevice = true ∧ ∃ n, parse text = .ok (.device n) := by
  constructor
  · intro hasked
    obtain ⟨e, he, -⟩ := hasked
    -- every other way is done at once, without an exchange
    by_contra hnot
    obtain ⟨result, hdone⟩ := exists_done ht hnot
    rw [hdone, Process.trace_done_iff] at h
    rw [h.1] at he
    cases he
  · intro hdevice
    obtain ⟨rfl, n, hn⟩ := hdevice
    rw [loadAddress_of_device ht hn, Process.trace_wait_iff] at h
    rcases h with ⟨rfl, -⟩ | ⟨answer, rest, rfl, -⟩
    · exact ⟨_, List.mem_cons_self, _, _, rfl⟩
    · exact ⟨_, List.mem_cons_self, _, _, rfl⟩

end Load

/-- With `t` for the text without the blanks around it. A text names the slot of a device if `t` is
the mark and a number of 32 bits, is no reference if `t` is empty or has the mark without such a
number, and names a key pair file otherwise. The mark is the same nine bytes as it is nine
characters, so that the ninth byte may stand anywhere in a character. An address is asked for on a
device exactly if the text is read as one of its slots, and a bad slot fails in the same way. All
else is taken as an address if it is one, whatever files there are, and only then as a file. -/
theorem reading_exact (ht : Blank.IsTrimmed text t) :
    (∀ n : UInt32, parse text = .ok (.device n) ↔
      ∃ slot, IsMarked t slot ∧ Numeral.Denotes slot n.toNat) ∧
    ((∃ fault, parse text = .error fault) ↔
      t = "" ∨ ∃ slot, IsMarked t slot ∧ ∀ n : UInt32, ¬ Numeral.Denotes slot n.toNat) ∧
    (∀ path, parse text = .ok (.keyPairFile path) ↔ path = t ∧ t ≠ "" ∧ ∀ slot, ¬ IsMarked t slot) ∧
    (∀ slot, IsMarked t slot ↔
      ∃ head, head.map Utf8.smallLetter = Utf8.encode "ledger://" ∧
        Utf8.encode t = head ++ Utf8.encode slot) ∧
    ∀ (σ : Type) (s : σ) (hasDevice : Bool) (files : FileTree),
      (∀ exchanges s' r, (loadAddress hasDevice files text s).Trace exchanges s' r →
        ((∃ e ∈ exchanges, ∃ path timeout, e.query = .deviceAddress path timeout) ↔
          hasDevice = true ∧ ∃ n, parse text = .ok (.device n))) ∧
      (∀ n, parse text = .ok (.device n) →
        loadAddress false files text s = .done s (.error (.signerUnavailable .noTransport)) ∧
        loadAddress true files text s =
          .wait s (.deviceAddress ⟨n⟩ defaultDeviceTimeout) fun answer ↦
          .done s ((HardwareKey.connect ⟨n⟩ answer).map HardwareKey.address)) ∧
      (∀ fault, parse text = .error fault →
        load hasDevice files text s = .done s (.error (.invalidSignerInput fault)) ∧
        ∀ slot, IsMarked t slot →
          loadAddress hasDevice files text s = .done s (.error (.invalidSignerInput fault))) ∧
      ((∀ slot, ¬ IsMarked t slot) →
        (∀ a : Address, Base58.decode t = .ok a.toList →
          loadAddress hasDevice files text s = .done s (.ok a)) ∧
        ((∀ a : Address, Base58.decode t ≠ .ok a.toList) →
          loadAddress hasDevice files text s =
            .done s (((KeyPair.load files t).map KeyPair.address).mapError
            fun cause ↦ .invalidSignerInput (.neither t cause)))) := by
  have ht := ht.trim_eq
  refine ⟨fun n ↦ parse_eq_device_iff ht, exists_parse_eq_error_iff ht,
    fun path ↦ parse_eq_keyPairFile_iff ht, fun slot ↦ isMarked_iff_bytes,
    fun σ s hasDevice files ↦ ⟨fun _ _ _ htrace ↦ asks_iff ht htrace, ?device, ?error, ?unmarked⟩⟩
  case device => exact fun n h ↦ ⟨loadAddress_of_noDevice ht h, loadAddress_of_device ht h⟩
  case error =>
    exact fun fault h ↦ ⟨load_of_error h, fun slot hmarked ↦ loadAddress_of_badSlot ht hmarked h⟩
  case unmarked =>
    exact fun h ↦ ⟨fun a ha ↦ loadAddress_of_address ht h ha, fun ha ↦ loadAddress_of_file ht h ha⟩

theorem reading_exact_zeros :
    let text := "\u2003\tLeDgEr://+007\u00a0"
    let t := "LeDgEr://+007"
    Blank.IsTrimmed text t ∧ parse text = .ok (.device 7) ∧ ∃ slot, IsMarked t slot ∧
        Numeral.Denotes slot 7 := by
  intro text t
  have ht : Blank.IsTrimmed text t := Blank.trim_eq_iff.1 (by decide +kernel)
  have hparse : parse text = .ok (.device 7) := by decide +kernel
  exact ⟨ht, hparse, ((reading_exact ht).1 7).1 hparse⟩

/-- Nine bytes end inside of the last character here. -/
example : parse "ledger:/é" = .ok (.keyPairFile "ledger:/é") := by decide +kernel

end ValidatorClient.SignerReference
