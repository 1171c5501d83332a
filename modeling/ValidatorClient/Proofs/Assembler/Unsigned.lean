import ValidatorClient.Proofs.Assembler.Submission

namespace ValidatorClient

open Ledger Assembler

namespace Compiled

variable {c c' : Compiled} {signers : List Signer} {signed : List Exchange}
  {instructions : List Instruction} {feePayer : Address} {e : ClientError}

/-- Someone is asked whose signature is not wanted, or does not sign, or nobody is asked whose
signature is wanted, or there are more signatures than can be written. -/
inductive Unsigned (c : Compiled) (signers : List Signer) (signed : List Exchange) :
    ClientError → Prop
  | unknownSigner {signer : Signer} (h : signer ∈ signers)
      (hkey : signer.address ∉ c.message.signerKeys) :
      Unsigned c signers signed (.unknownSigner signer.address)
  | refused {signer : Signer} {e : ClientError}
      (h : ⟨.sign signer c.bytes, some (Except.error e)⟩ ∈ signed) : Unsigned c signers signed e
  | wrongSignature {signer : Signer} {signature : Signature}
      (h : ⟨.sign signer c.bytes, some (Except.ok signature)⟩ ∈ signed)
      (hwrong : signer.address.verifies c.bytes signature = false) :
      Unsigned c signers signed (.signerRejected (.wrongSignature signer.address))
  | incomplete {key : Address} (hkey : key ∈ c.message.signerKeys)
      (h : key ∉ signers.map (·.address))
      (missing required : Nat) : Unsigned c signers signed (.incompleteSignatures missing required)
  | unwritable (error : Ledger.Error) : Unsigned c signers signed (.ledger error)

theorem unsigned_of_sign {a a' : Assembler} (hphase : a.IsIn (.compiled c))
    (h : (sign signers a).Trace signed a' (some (.error e))) : c.Unsigned signers signed e := by
  rcases trace_sign_of_compiled hphase h with
    ⟨signer, hsigner, hkey, -, -, hr⟩ | ⟨planned, c', -, -, hsigns, -⟩
  · cases hr
    exact .unknownSigner hsigner hkey
  · obtain ⟨p, -, hrefused | ⟨signature, hmem, hwrong, he⟩⟩ := hsigns.error
    · exact .refused hrefused
    · rw [he]
      exact .wrongSignature hmem hwrong

theorem wire_eq_error (h : c.wire = .error e) :
    (none ∈ c.slots ∧ ∃ missing required, e = .incompleteSignatures missing required) ∨
      ∃ error, e = .ledger error := by
  unfold Compiled.wire at h
  dsimp only at h
  by_cases hlength : (c.slots.filterMap id).length = c.slots.length
  · rw [if_neg (not_not_intro hlength)] at h
    cases hserialize : Wire.serialize (c.slots.filterMap id) c.bytes with
    | ok wire =>
      rw [hserialize] at h
      cases h
    | error error =>
      rw [hserialize] at h
      cases h
      exact .inr ⟨error, rfl⟩
  · rw [if_pos hlength] at h
    cases h
    refine .inl ⟨?_, _, _, rfl⟩
    by_contra hnone
    refine hlength (List.filterMap_length_eq_length.2 fun slot hslot ↦ ?_)
    exact Option.isSome_iff_ne_none.2 fun hslot' ↦ hnone (hslot' ▸ hslot)

theorem Sound.eq_of_slotOf (h : c.Sound instructions feePayer) {key : Address} {i slot : Nat}
    (hkey : c.message.signerKeys[i]? = some key) (hslot : c.slotOf key = .ok slot) : slot = i := by
  have hslot' := getElem?_of_slotOf hslot
  exact (List.getElem?_inj (List.getElem?_eq_some_iff.1 hslot').1
      (Message.nodup_signerKeys h.compiles)).1
    (hslot'.trans hkey.symm)

theorem unsigned_of_wire {planned : List Planned} (hsound : c.Sound instructions feePayer)
    (hsigners : (planned.map (·.signer)).Perm signers)
    (hslots : ∀ p ∈ planned, c.slotOf p.signer.address = .ok p.slot)
    (hsigns : Signs planned c signed c' (some (.ok ()))) (hwire : c'.wire = .error e) :
    c.Unsigned signers signed e := by
  rcases wire_eq_error hwire with ⟨hnone, missing, required, he⟩ | ⟨error, he⟩
  · obtain ⟨i, hi⟩ := List.mem_iff_getElem?.1 hnone
    rcases hsigns.filled hi with hsome | ⟨hempty, hne⟩
    · cases hsome
    have hlt : i < c.message.signerKeys.length := by
      rw [hsound.verifies.length_eq]
      exact (List.getElem?_eq_some_iff.1 hempty).1
    have hkey := List.getElem?_eq_getElem hlt
    rw [he]
    refine .incomplete (List.getElem_mem hlt) (fun hmem ↦ ?_) missing required
    obtain ⟨signer, hsigner, haddress⟩ := List.mem_map.1 hmem
    obtain ⟨p, hp, hsigner'⟩ := List.mem_map.1 (hsigners.mem_iff.2 hsigner)
    refine hne p hp (hsound.eq_of_slotOf hkey ?_)
    rw [← haddress, ← hsigner']
    exact hslots p hp
  · rw [he]
    exact .unwritable error

end Compiled

end ValidatorClient
