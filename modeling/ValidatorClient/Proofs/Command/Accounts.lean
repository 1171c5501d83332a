import ValidatorClient.Command
import ValidatorClient.Proofs.Exchange
import ValidatorClient.Proofs.Program.Numeration

namespace ValidatorClient

open Ledger Program

namespace Program

variable {e : ClientError}

theorem ofPreparation_of_locate {l : Location} (h : locate l = .error e) : e.OfPreparation := by
  obtain ⟨error, -, he⟩ := Except.mapError_eq_error_iff.1 h
  rw [← he]
  exact .ledger error

theorem ofPreparation_of_resolve {location : UInt32 → Location} {address : Option Address}
    {numeration : Option UInt32} {upperBound : UInt32}
    (h : resolve location address numeration upperBound = .error e) : e.OfPreparation := by
  cases numeration with
  | some n =>
    rcases Except.bind_eq_error_iff.1 h with h | ⟨_, -, h⟩
    · exact ofPreparation_of_locate h
    · cases h
  | none =>
    cases address with
    | none =>
      cases h
      exact .invalidArgument _
    | some address =>
      rcases Except.bind_eq_error_iff.1 h with h | ⟨n, -, h⟩
      · rcases error_of_numerationOf h with ⟨n, h⟩ | rfl
        · exact ofPreparation_of_locate h
        · exact .notFound _
      · cases h

end Program

namespace Command

variable {key : Address} {addresses : List Address} {accounts : List Listed}
  {metas : List AccountMeta} {e : ClientError}

def Listed.address : Listed → Except ClientError Address
  | payer a | writable a | readonly a => .ok a
  | writableAt l | readonlyAt l => locate l

theorem Listed.address_of_account {l : Listed} {a : AccountMeta} (h : l.account = .ok a) :
    l.address = .ok a.address := by
  cases l with
  | payer | writable | readonly =>
    cases h
    rfl
  | writableAt l | readonlyAt l =>
    obtain ⟨address, haddress, ha⟩ := Except.map_eq_ok_iff.1 h
    rw [← ha]
    exact haddress

theorem ofPreparation_of_account {l : Listed} (h : l.account = .error e) :
    e.OfPreparation := by
  cases l with
  | payer | writable | readonly => cases h
  | writableAt l | readonlyAt l =>
    cases hlocate : locate l with
    | ok address =>
      rw [Listed.account, hlocate] at h
      cases h
    | error e' =>
      rw [Listed.account, hlocate] at h
      cases h
      exact ofPreparation_of_locate hlocate

theorem isSigner_of_account {l : Listed} {a : AccountMeta} (h : l.account = .ok a) :
    a.isSigner = true ∧ a.address = key ↔ l = .payer key := by
  cases l with
  | payer | writable | readonly =>
    cases h
    simp [AccountMeta.writableSigner, AccountMeta.writable, AccountMeta.readonly]
  | writableAt | readonlyAt =>
    obtain ⟨address, -, ha⟩ := Except.map_eq_ok_iff.1 h
    rw [← ha]
    simp [AccountMeta.writable, AccountMeta.readonly]

theorem ofPreparation_of_accounts (h : accounts.mapM Listed.account = .error e) :
    e.OfPreparation := by
  obtain ⟨l, -, he⟩ := Except.exists_of_mapM_eq_error h
  exact ofPreparation_of_account he

def SignedBy (addresses : List Address) (metas : List AccountMeta) : Prop :=
  ∀ key, (∃ a ∈ metas, a.isSigner = true ∧ a.address = key) ↔ key ∈ addresses

theorem signedBy_of_accounts (h : accounts.mapM Listed.account = .ok metas)
    (hlisted : ∀ key, Listed.payer key ∈ accounts ↔ key ∈ addresses) :
    SignedBy addresses metas := by
  obtain ⟨hright, hleft⟩ := Except.mem_of_mapM_eq_ok h
  intro key
  rw [← hlisted key]
  constructor
  · intro hmem
    obtain ⟨a, ha, hsigns⟩ := hmem
    obtain ⟨l, hl, haccount⟩ := hright a ha
    rwa [← (isSigner_of_account haccount).1 hsigns]
  · intro hmem
    obtain ⟨a, ha, haccount⟩ := hleft _ hmem
    exact ⟨a, ha, (isSigner_of_account haccount).2 rfl⟩

theorem payer_notMem_gemTriple (program owner mint : Address) :
    Listed.payer key ∉ gemTriple program owner mint := by
  simp [gemTriple]

theorem payer_notMem_executionAccounts (single : SingleAccount → Location) (execution : Execution) :
    Listed.payer key ∉ executionAccounts single execution := by
  cases execution with
  | config | upgrade => simp [executionAccounts]
  | voteAccount _ newValidatorId =>
    cases newValidatorId
    all_goals simp [executionAccounts]

end Command

end ValidatorClient
