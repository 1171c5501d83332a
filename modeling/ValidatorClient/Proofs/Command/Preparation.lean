import ValidatorClient.Proofs.Command.Accounts

namespace ValidatorClient

open Ledger Program Attempt Process

namespace Context

variable {σ : Type} {s : σ} {ctx : Context}

theorem trace_accountData {kind : String} {address : Address} {exchanges : List Exchange} {s' : σ}
    {r : Option (Except ClientError Bytes)}
    (h : (accountData kind address s).Trace exchanges s' r) :
    s' = s ∧ Prompt exchanges r ∧ (∀ e, r = some (.error e) → e.OfPreparation) ∧
      ∃ answer : Option (Except RpcError (Option Bytes)), exchanges = [⟨.account address, answer⟩] ∧
        ∀ data, r = some (.ok data) → answer = some (.ok (some data)) := by
  rw [accountData, ask_bind] at h
  rcases trace_wait_iff.1 h with ⟨he, hs, hr⟩ | ⟨answer, rest, he, h⟩
  · subst he hr
    exact ⟨hs, .one_givenUp _, nofun, none, rfl, nofun⟩
  · rcases answer with e | _ | data
    all_goals
      obtain ⟨hrest, hs, hr⟩ := trace_done_iff.1 h
      subst he hrest hr
    · refine ⟨hs, .one_failed (.account e), fun e' he ↦ ?_, _, rfl, nofun⟩
      cases he
      exact .rpc e
    · refine ⟨hs, .one_failed (.noAccount kind address), fun e' he ↦ ?_, _, rfl, nofun⟩
      cases he
      exact .notFound _
    · refine ⟨hs, .done (by simpa using .account data) _, nofun, _, rfl, fun a ha ↦ ?_⟩
      cases ha
      rfl

theorem reads_accountData (kind : String) (address : Address) :
    Reads s (accountData kind address) fun exchanges data ↦
      exchanges = [⟨.account address, some (Except.ok (some data))⟩] := by
  intro exchanges s' r h
  obtain ⟨hs, hprompt, herror, answer, he, hdata⟩ := trace_accountData h
  refine ⟨hs, hprompt, by simp [he], herror, fun data hr ↦ ?_⟩
  rw [he, hdata data hr]
  rfl

theorem reads_at {α : Type} (l : Location) {kind : String} {parse : Bytes → Except AccountFault α} :
    Reads s (do
        let address ← Attempt.ofExcept (locate l)
        let data ← accountData kind address
        Attempt.ofExcept ((parse data).mapError .accountData) : Attempt σ α) fun exchanges a ↦
      ∃ address data, locate l = .ok address ∧ parse data = .ok a ∧
        exchanges = [⟨.account address, some (Except.ok (some data))⟩] := by
  refine reads_ofExcept_bind (fun _ ↦ ofPreparation_of_locate) fun address haddress ↦ ?_
  refine (reads_accountData kind address).bind fun read data hread ↦
    (reads_ofExcept fun e he ↦ ?_).imp fun _ a ha ↦ ?_
  · obtain ⟨fault, -, he⟩ := Except.mapError_eq_error_iff.1 he
    rw [← he]
    exact .accountData fault
  rw [hread, ha.1]
  exact ⟨address, data, haddress, Except.mapError_eq_ok_iff.1 ha.2, rfl⟩

theorem trace_generalAccount {exchanges : List Exchange} {s' : σ}
    {r : Option (Except ClientError GeneralAccount)}
    (h : (ctx.generalAccount s).Trace exchanges s' r) :
    exchanges = [] ∨ ∃ general answer, ctx.single .general = .ok general ∧
      exchanges = [⟨.account general, answer⟩] := by
  rcases trace_bind_cases h with ⟨_, hsingle, -⟩ | ⟨first, rest, _, general, he, hsingle, h⟩
  · exact .inl (trace_ofExcept_iff.1 hsingle).1
  · obtain ⟨hfirst, -, hgeneral⟩ := trace_ofExcept_iff.1 hsingle
    refine .inr ⟨general, ?_⟩
    rw [he, hfirst, List.nil_append]
    rcases trace_bind_cases h with ⟨_, hdata, -⟩ | ⟨read, rest, _, data, he, hdata, h⟩
    · obtain ⟨-, -, -, answer, hread, -⟩ := trace_accountData hdata
      exact ⟨answer, (Option.some.inj hgeneral).symm, hread⟩
    · obtain ⟨-, -, -, answer, hread, -⟩ := trace_accountData hdata
      refine ⟨answer, (Option.some.inj hgeneral).symm, ?_⟩
      rw [he, hread, (trace_ofExcept_iff.1 h).1]
      rfl

theorem reads_generalAccount : Reads s ctx.generalAccount fun exchanges general ↦
    ∃ address data, ctx.single .general = .ok address ∧
      readAccount GeneralAccount.layout data = .ok general ∧
      exchanges = [⟨.account address, some (Except.ok (some data))⟩] := reads_at _

theorem reads_fundsLocation (mint : Address) :
    Reads s (ctx.fundsLocation mint) fun exchanges location ↦
    ∃ address data, ctx.gem mint = .ok address ∧
      readAddress data fundsLocationOffset = .ok location ∧
      exchanges = [⟨.account address, some (Except.ok (some data))⟩] := reads_at _

theorem reads_locate (l : Location) :
    Reads s (Attempt.ofExcept (locate l)) fun exchanges address ↦
      exchanges = [] ∧ locate l = .ok address :=
  reads_ofExcept fun _ ↦ ofPreparation_of_locate

theorem reads_resolve (location : UInt32 → Location) (address : Option Address)
    (numeration : Option UInt32) (upperBound : UInt32) :
    Reads s (Attempt.ofExcept (resolve location address numeration upperBound))
      fun exchanges found ↦
      exchanges = [] ∧ resolve location address numeration upperBound = .ok found :=
  reads_ofExcept fun _ ↦ ofPreparation_of_resolve

theorem reads_resolveNumbered (location : UInt32 → Location) (counter : GeneralAccount → UInt32)
    (account : NumberedAccount) :
    Reads s (ctx.resolveNumbered location counter account) fun exchanges found ↦
      (ctx.resolveNumbered location counter account s).Trace exchanges s (some (.ok found)) := by
  cases account with
  | numeration n => exact (reads_resolve location none (some n) 0).trace
  | address a =>
    exact (reads_generalAccount.bind (Q := fun _ _ ↦ True) fun _ _ _ ↦
      (reads_resolve location (some a) none _).imp fun _ _ _ ↦ trivial).trace

end Context

namespace Command

variable {σ : Type} {s : σ} {ctx : Context} {payer : Signer}

def instruction (numeration : UInt32) : Command → Except ArgumentFault Program.Instruction
  | mintGem _ level => Checked.mintGem level
  | redeemGem _ level => Checked.redeemGem level
  | delegateGem _ level => Checked.delegateGem level
  | undelegateGem _ level => Checked.undelegateGem level
  | withdrawRewards _ mints level => Checked.withdrawRewards mints.length level
  | processRewards _ _ level => Checked.processRewards level
  | initRebalance _ level => Checked.initRebalance level
  | finalizeRebalance _ level => Checked.finalizeRebalance level
  | setUp _ setup _ => Checked.setUp setup
  | uploadUris uris rarity level => Checked.uploadUris uris rarity level
  | resetUris level => Checked.resetUris level
  | createVoteAccount level => Checked.createVoteAccount level
  | openProposal _ proposal level => Checked.openProposal proposal level
  | vote _ approve mints level => Checked.vote numeration approve mints.length level
  | finalizeProposal _ level => Checked.finalizeProposal numeration level
  | executeProposal _ _ level => Checked.executeProposal numeration level

def proposal? : Command → Option NumberedAccount
  | vote account _ _ _ => some account
  | finalizeProposal account _ => some account
  | executeProposal account _ _ => some account
  | _ => none

theorem reads_listing (i : Program.Instruction) {accounts : List Listed} {addresses : List Address}
    (h : ∀ key, Listed.payer key ∈ accounts ↔ key ∈ addresses) :
    Reads s (listing i accounts) fun exchanges prepared ↦
      exchanges = [] ∧ prepared.instruction = i ∧ SignedBy addresses prepared.accounts := by
  refine (reads_ofExcept fun e he ↦ ?_).imp fun _ prepared hprepared ↦ ⟨hprepared.1, ?_⟩
  · rcases Except.bind_eq_error_iff.1 he with he | ⟨_, -, he⟩
    · exact ofPreparation_of_accounts he
    · cases he
  · obtain ⟨metas, hmetas, hprepared⟩ := Except.bind_eq_ok_iff.1 hprepared.2
    cases hprepared
    exact ⟨rfl, signedBy_of_accounts hmetas h⟩

theorem reads_checked_bind {β : Type} {x : Except ArgumentFault Program.Instruction}
    {next : Program.Instruction → Attempt σ β} {post : List Exchange → β → Prop}
    (h : ∀ i, x = .ok i → Reads s (next i) post) : Reads s (checked x >>= next) post := by
  refine reads_ofExcept_bind (fun e he ↦ ?_) fun i hi ↦ h i (Except.mapError_eq_ok_iff.1 hi)
  obtain ⟨fault, -, he⟩ := Except.mapError_eq_error_iff.1 he
  rw [← he]
  exact .invalidArgument _

def Asked (command : Command) (ctx : Context) (s : σ) (exchanges : List Exchange)
    (prepared : Prepared) :
    Prop :=
  ∃ numeration, command.instruction numeration = .ok prepared.instruction ∧
    ∀ account, command.proposal? = some account →
      ∃ proposal,
        (ctx.resolveProposal account s).Trace exchanges s (some (.ok (proposal, numeration)))

theorem reads_of_checked {command : Command} {x : Except ArgumentFault Program.Instruction}
    {next : Program.Instruction → Attempt σ Prepared} {post : Prepared → Prop}
    (hx : command.instruction 0 = x) (hnone : command.proposal? = none)
    (h : ∀ i, Reads s (next i) fun _ prepared ↦ prepared.instruction = i ∧ post prepared) :
    Reads s (checked x >>= next) fun exchanges prepared ↦
      command.Asked ctx s exchanges prepared ∧ post prepared := by
  refine reads_checked_bind fun i hi ↦ (h i).imp fun exchanges prepared hprepared ↦
    ⟨⟨0, ?_, ?_⟩, hprepared.2⟩
  · rw [hprepared.1, hx, hi]
  · intro account haccount
    rw [hnone] at haccount
    cases haccount

theorem reads_of_resolved {command : Command} {account : NumberedAccount}
    {next : Address × UInt32 → Attempt σ Prepared} {post : Prepared → Prop}
    (hsome : command.proposal? = some account)
    (h : ∀ proposal n, Reads s (next (proposal, n)) fun exchanges prepared ↦
      exchanges = [] ∧ command.instruction n = .ok prepared.instruction ∧ post prepared) :
    Reads s (ctx.resolveProposal account >>= next) fun exchanges prepared ↦
      command.Asked ctx s exchanges prepared ∧ post prepared := by
  refine (Context.reads_resolveNumbered _ _ account).bind fun first found hfound ↦ ?_
  refine (h found.1 found.2).imp fun rest prepared hprepared ↦
    ⟨⟨found.2, hprepared.2.1, ?_⟩, hprepared.2.2⟩
  rw [hprepared.1, List.append_nil]
  intro account' haccount
  cases hsome.symm.trans haccount
  exact ⟨found.1, hfound⟩

/-- Whatever else it does, a command is prepared to tell the program what was asked, and the
accounts that sign are those of its signers. -/
theorem reads_prepare (command : Command) :
    Reads s (command.prepare ctx payer.address) fun exchanges prepared ↦
      command.Asked ctx s exchanges prepared ∧
        SignedBy ((command.signers payer).map (·.address)) prepared.accounts := by
  have hlisting (i : Program.Instruction) {accounts : List Listed} {addresses : List Address}
      (h : ∀ key, Listed.payer key ∈ accounts ↔ key ∈ addresses) :
      Reads s (listing i accounts) fun _ prepared ↦
        prepared.instruction = i ∧ SignedBy addresses prepared.accounts :=
    (reads_listing i h).imp fun _ _ h ↦ h.2
  cases command with
  | delegateGem | finalizeRebalance | uploadUris | resetUris =>
    exact reads_of_checked rfl rfl fun i ↦ hlisting i (by simp [signers])
  | mintGem =>
    exact reads_of_checked rfl rfl fun i ↦ (Context.reads_locate _).then fun _ ↦
      hlisting i (by simp [signers])
  | setUp =>
    exact reads_of_checked rfl rfl fun i ↦ (Context.reads_locate _).then fun _ ↦
      (Context.reads_locate _).then fun _ ↦ hlisting i (by simp [signers])
  | undelegateGem mint =>
    exact reads_of_checked rfl rfl fun i ↦ (Context.reads_fundsLocation mint).then fun _ ↦
      hlisting i (by simp [signers])
  | redeemGem mint =>
    exact reads_of_checked rfl rfl fun i ↦ (Context.reads_fundsLocation mint).then fun _ ↦
      (Context.reads_locate _).then fun _ ↦ hlisting i (by simp [signers])
  | withdrawRewards account =>
    exact reads_of_checked rfl rfl fun i ↦ (Context.reads_resolveNumbered _ _ account).then fun _ ↦
      hlisting i (by simp [signers, payer_notMem_gemTriple])
  | processRewards _ account | initRebalance account =>
    exact reads_of_checked rfl rfl fun i ↦ (Context.reads_resolveNumbered _ _ account).then fun _ ↦
      hlisting i (by simp [signers])
  | createVoteAccount =>
    exact reads_of_checked rfl rfl fun i ↦ Context.reads_generalAccount.then fun _ ↦
      hlisting i (by simp [signers])
  | openProposal mint proposal =>
    refine reads_of_checked rfl rfl fun i ↦ (Context.reads_fundsLocation mint).then fun _ ↦
      Context.reads_generalAccount.then fun _ ↦ hlisting i ?_
    cases proposal
    all_goals simp [signers]
  | vote account =>
    exact reads_of_resolved rfl fun _ _ ↦ reads_checked_bind fun i hi ↦
      (reads_listing i (by simp [signers, payer_notMem_gemTriple])).imp
        fun _ _ h ↦ ⟨h.1, h.2.1.symm ▸ hi, h.2.2⟩
  | finalizeProposal account =>
    exact reads_of_resolved rfl fun _ _ ↦ reads_checked_bind fun i hi ↦
      (reads_listing i (by simp [signers])).imp fun _ _ h ↦ ⟨h.1, h.2.1.symm ▸ hi, h.2.2⟩
  | executeProposal account =>
    exact reads_of_resolved rfl fun _ _ ↦ reads_checked_bind fun i hi ↦
      (reads_listing i (by simp [signers, payer_notMem_executionAccounts])).imp
        fun _ _ h ↦ ⟨h.1, h.2.1.symm ▸ hi, h.2.2⟩

end Command

end ValidatorClient
