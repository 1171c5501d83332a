import ValidatorClient.Proofs.Settings.Store
import ValidatorClient.Proofs.Text.Base58
import ValidatorClient.Settings.Basic

namespace ValidatorClient.Ledger.Address

open ValidatorClient.Text

variable {a : Address} {bytes : Bytes} {t : String}

theorem ofBytes_eq_ok_iff : ofBytes bytes = .ok a ↔ bytes = a.toList := by
  rw [ofBytes]
  constructor
  · intro h
    cases hbytes : FixedBytes.ofList? 32 bytes with
    | none =>
      rw [hbytes] at h
      cases h
    | some b =>
      rw [hbytes] at h
      cases h
      exact (FixedBytes.ofList?_eq_some_iff.1 hbytes).symm
  · intro h
    rw [FixedBytes.ofList?_eq_some_iff.2 h.symm]

theorem ofBytes_of_length_ne (h : bytes.length ≠ 32) :
    ofBytes bytes = .error (.invalidAddress (.length bytes.length)) := by
  rw [ofBytes, FixedBytes.ofList?, dif_neg h]

theorem parse_encode (bytes : Bytes) : parse (Base58.encode bytes) = ofBytes bytes := by
  rw [parse, Base58.decode_encode]

theorem parse_eq_ok_iff : parse t = .ok a ↔ t = a.toString := by
  constructor
  · intro h
    cases ht : Base58.decode t with
    | error fault =>
      rw [parse, ht] at h
      cases h
    | ok bytes =>
      obtain rfl := Base58.decode_eq_ok_iff.1 ht
      rw [parse_encode] at h
      rw [ofBytes_eq_ok_iff.1 h]
      rfl
  · intro h
    rw [h, toString, parse_encode, ofBytes_eq_ok_iff]

theorem parse_eq_ok_iff_decode : parse t = .ok a ↔ Base58.decode t = .ok a.toList := by
  rw [parse_eq_ok_iff, Base58.decode_eq_ok_iff]
  rfl

theorem toString_ne_empty : a.toString ≠ "" := by
  intro h
  have hempty : parse "" = .error (.invalidAddress (.length 0)) := by decide +kernel
  cases hempty.symm.trans (parse_eq_ok_iff.2 h.symm)

theorem parse_of_more_zeros {n : Nat} (hn : 0 < n)
    (h : t.toList = List.replicate n '1' ++ a.toString.toList) :
    parse t = .error (.invalidAddress (.length (32 + n))) := by
  rw [toString, ← Base58.toList_encode_zeros, String.toList_inj] at h
  have hlen : (List.replicate n 0 ++ a.toList).length = 32 + n := by
    rw [List.length_append, List.length_replicate, a.length_toList, Nat.add_comm]
  rw [h, parse_encode, ofBytes_of_length_ne (by omega), hlen]

theorem parse_of_fewer_zeros {n : Nat} (hn : 0 < n)
    (h : a.toString.toList = List.replicate n '1' ++ t.toList) :
    parse t = .error (.invalidAddress (.length (32 - n))) := by
  obtain ⟨bytes, ha, rfl⟩ := Base58.exists_of_toList_encode h
  have hlen : 32 = n + bytes.length := by
    rw [← a.length_toList, ha, List.length_append, List.length_replicate]
  rw [parse_encode, ofBytes_of_length_ne (by omega), hlen, Nat.add_sub_cancel_left]

theorem program_eq_of_get {σ : Type} {store : Store σ} {s : σ}
    (h : store.get s Settings.programKey = a.toString) :
    Settings.program store s = a := by
  have hempty : ¬ a.toString.isEmpty = true := by
    rw [String.isEmpty_iff]
    exact toString_ne_empty
  rw [Settings.program, h, if_neg hempty, parse_eq_ok_iff.2 rfl]

/-- Writing and reading an address are inverse to each other, so that an address has one text. A
text of more or fewer bytes is refused with their number, also if it is the text of an address but
for some `'1'` in front. A program that was set is the one that is got, from each store that gives
back what was set, as those in memory and in a file do. -/
theorem text_exact :
    (∀ a, parse a.toString = .ok a) ∧
    (∀ t a, parse t = .ok a → a.toString = t) ∧
    Function.Injective Address.toString ∧
    (∀ t bytes, Base58.decode t = .ok bytes → bytes.length ≠ 32 →
      parse t = .error (.invalidAddress (.length bytes.length))) ∧
    (∀ (a : Address) t n, 0 < n → t.toList = List.replicate n '1' ++ a.toString.toList →
      parse t = .error (.invalidAddress (.length (32 + n)))) ∧
    (∀ (a : Address) t n, 0 < n → a.toString.toList = List.replicate n '1' ++ t.toList →
      parse t = .error (.invalidAddress (.length (32 - n)))) ∧
    Store.memory.Lawful ∧ (∀ path, (Store.jsonFile path).Lawful) ∧
    ∀ (σ : Type) (store : Store σ), store.Lawful → ∀ a s s',
      (Settings.setProgram store a).apply s = (.ok (), s') → Settings.program store s' = a := by
  refine ⟨fun a ↦ parse_eq_ok_iff.2 rfl, fun t a h ↦ (parse_eq_ok_iff.1 h).symm, ?injective,
    ?length, fun a t n hn h ↦ parse_of_more_zeros hn h, fun a t n hn h ↦ parse_of_fewer_zeros hn h,
    Store.lawful_memory, Store.lawful_jsonFile, ?program⟩
  case injective =>
    intro a b h
    have hb := parse_eq_ok_iff.2 h
    exact Except.ok.inj ((parse_eq_ok_iff.2 rfl).symm.trans hb)
  case length =>
    intro t bytes h hlen
    rw [Base58.decode_eq_ok_iff.1 h, parse_encode, ofBytes_of_length_ne hlen]
  case program =>
    intro σ store hstore a s s' h
    exact program_eq_of_get ((hstore h _).trans (if_pos rfl))

theorem text_exact_leadingZeros :
    let zeros := "111111111111111111111111111111"
    parse ("1" ++ zeros ++ "8") = .ok (.ofNat 7) ∧ (ofNat 7).toString = "1" ++ zeros ++ "8" ∧
    parse ("11" ++ zeros ++ "8") = .error (.invalidAddress (.length 33)) ∧
    parse (zeros ++ "8") = .error (.invalidAddress (.length 31)) ∧
    parse "8" = .error (.invalidAddress (.length 1)) ∧
    ∃ entries, (Settings.setProgram .memory (.ofNat 7)).apply [] = (.ok (), entries) ∧
      Settings.program .memory entries = .ofNat 7 := by
  intro zeros
  obtain ⟨-, hprint, -, hlength, hmore, hfewer, hmemory, -, hprogram⟩ := text_exact
  have hparse : parse ("1" ++ zeros ++ "8") = .ok (.ofNat 7) := by decide +kernel
  refine ⟨hparse, hprint _ _ hparse, hmore (.ofNat 7) _ 1 (by decide) ?more,
    hfewer (.ofNat 7) _ 1 (by decide) ?fewer, hlength "8" [7] (by decide +kernel) (by decide), _,
    rfl, hprogram _ _ hmemory _ [] _ rfl⟩
  case more => decide +kernel
  case fewer => decide +kernel

end ValidatorClient.Ledger.Address
