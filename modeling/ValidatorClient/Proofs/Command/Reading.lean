import ValidatorClient.Proofs.Command.Numbered
import ValidatorClient.Proofs.Context.Reading

namespace ValidatorClient

open Ledger Program Attempt Process

def NumberedAccount.readings : NumberedAccount → List Reading
  | numeration _ => []
  | address _ => [.general]

def NumberedAccount.value (ctx : Context) (node : Address → Option Bytes)
    (location : UInt32 → Location) (counter : GeneralAccount → UInt32) :
    NumberedAccount → Except ClientError (Address × UInt32)
  | numeration n => resolve location none (some n) 0
  | address a =>
    Reading.general.value ctx node >>= fun g ↦ resolve location (some a) none (counter g)

section Numbered

variable {σ : Type} {ctx : Context} {node : Address → Option Bytes} {account : NumberedAccount}

theorem finds_resolveNumbered (location : UInt32 → Location) (counter : GeneralAccount → UInt32)
    (account : NumberedAccount) :
    Finds node (ctx.resolveNumbered location counter account : Attempt σ (Address × UInt32))
      (account.value ctx node location counter) := by
  cases account with
  | numeration => exact finds_ofExcept _
  | address => exact (Reading.finds_read .general).bind fun _ ↦ finds_ofExcept _

theorem finds_checked_bind {α : Type} {x : Except ArgumentFault Program.Instruction}
    {i : Program.Instruction} {next : Program.Instruction → Attempt σ α}
    {result : Except ClientError α} (hx : x = .ok i) (h : Finds node (next i) result) :
    Finds node (Command.checked x >>= next) result := by
  intro s exchanges s' r htrace hnode
  rw [Command.checked, ofExcept_bind_of_ok _ _ (by rw [hx]; rfl)] at htrace
  exact h _ _ _ _ htrace hnode

namespace NumberedCommand

variable {c : NumberedCommand}

def counterOffset : NumberedCommand → Nat
  | withdrawRewards _ _ | processRewards _ _ | initRebalance _ => 4
  | vote _ _ _ | finalizeProposal _ | executeProposal _ _ => 41

def search (ctx : Context) (general : Bytes) (target : Address) (c : NumberedCommand) :
    Except ClientError UInt32 :=
  numerationOf (fun n ↦ locate (c.location ctx.program n)) target (general.wordAt c.counterOffset)

theorem command_injective {c' : NumberedCommand} {account' : NumberedAccount}
    (h : c.command account = c'.command account') : c = c' ∧ account = account' := by
  cases c <;> cases c' <;> cases h
  all_goals exact ⟨rfl, rfl⟩

/-- Once the account is found, nothing more is read, however it was named. -/
theorem exists_finds_prepare (ctx : Context) (payer : Address) (node : Address → Option Bytes)
    (hvalid : ∃ i, (c.command account).instruction 0 = .ok i) :
    ∃ next : Address × UInt32 → Except ClientError Prepared, ∀ account,
      Finds node ((c.command account).prepare ctx payer : Attempt σ Prepared)
        (account.value ctx node (c.location ctx.program) c.counter >>= next) := by
  obtain ⟨i, hi⟩ := hvalid
  cases c with
  | withdrawRewards | processRewards | initRebalance =>
    exact ⟨_, fun account ↦
      finds_checked_bind hi ((finds_resolveNumbered _ _ account).bind fun _ ↦ finds_ofExcept _)⟩
  | vote | finalizeProposal | executeProposal =>
    exact ⟨_, fun account ↦ (finds_resolveNumbered _ _ account).bind fun _ ↦
      (finds_ofExcept _).bind fun _ ↦ finds_ofExcept _⟩

end NumberedCommand

end Numbered

namespace Command

open Reading (InOrder)

def readings : Command → List Reading
  | redeemGem mint _ | undelegateGem mint _ => [.gem mint]
  | createVoteAccount _ => [.general]
  | openProposal mint _ _ => [.gem mint, .general]
  | withdrawRewards account _ _ | processRewards _ account _ | initRebalance account _ |
      vote account _ _ _
  | finalizeProposal account _ | executeProposal account _ _ => account.readings
  | mintGem _ _ | delegateGem _ _ | finalizeRebalance _ _ | setUp _ _ _ | uploadUris _ _ _ |
      resetUris _ => []

def delegated? : Command → Option (Address × Nat)
  | redeemGem mint _ => some (mint, 11)
  | undelegateGem mint _ | openProposal mint _ _ => some (mint, 1)
  | _ => none

/-- What is created, where the general account has its number, and the place where it is listed. -/
def created? : Command → Option ((Address → UInt32 → Location) × Nat × Nat)
  | createVoteAccount _ => some (.voteAccount, 4, 1)
  | openProposal _ _ _ => some (.proposal, 41, 2)
  | _ => none

structure Prepares (ctx : Context) (payer : Address) (node : Address → Option Bytes)
    (command : Command) (result : Except ClientError Prepared) : Prop where
  finds : Finds node (command.prepare ctx payer : Attempt BlockhashCache Prepared) result
  inOrder : InOrder ctx node command.readings result
  delegated : ∀ mint place address data prepared, command.delegated? = some (mint, place) →
    ctx.gem mint = .ok address → node address = some data → result = .ok prepared →
      ∃ a : Address, a.toList = (data.drop 20).take 32 ∧
        prepared.accounts[place]?.map (·.address) = some a
  created :
    ∀ location offset place address data prepared,
      command.created? = some (location, offset, place) →
    ctx.single .general = .ok address → node address = some data → result = .ok prepared →
      ∃ a, locate (location ctx.program (data.wordAt offset)) = .ok a ∧
        prepared.accounts[place]?.map (·.address) = some a
  searched : ∀ (c : NumberedCommand) target address data, command = c.command (.address target) →
    ctx.single .general = .ok address → node address = some data → Reading.general.Holds data →
      (∀ e, c.search ctx data target = .error e → result = .error e) ∧
      ∀ n, c.search ctx data target = .ok n →
        Finds node ((c.command (.numeration n)).prepare ctx payer : Attempt BlockhashCache Prepared)
          result

variable {ctx : Context} {node : Address → Option Bytes} {payer : Address} {command : Command}
  {result : Except ClientError Prepared}

theorem prepares_of_readings_nil
    (hfinds : Finds node (command.prepare ctx payer : Attempt BlockhashCache Prepared) result)
    (hnil : command.readings = []) (hdelegated : command.delegated? = none)
    (hcreated : command.created? = none)
    (hplain : ∀ (c : NumberedCommand) target, command ≠ c.command (.address target)) :
    Prepares ctx payer node command result where
  finds := hfinds
  inOrder := by
    rw [hnil]
    exact .nil result
  delegated := by simp [hdelegated]
  created := by simp [hcreated]
  searched := fun c target _ _ h ↦ absurd h (hplain c target)

section Listed

variable {i : Program.Instruction} {accounts : List Listed} {prepared : Prepared} {place : Nat}
  {l : Listed} {address : Address} {data : Bytes}
  (h : (do return ⟨i, ← accounts.mapM Listed.account⟩) = Except.ok (ε := ClientError) prepared)
include h

theorem exists_listed (hl : accounts[place]? = some l) :
    ∃ a, l.address = .ok a ∧ prepared.accounts[place]?.map (·.address) = some a := by
  obtain ⟨metas, hmetas, hprepared⟩ := Except.bind_eq_ok_iff.1 h
  cases hprepared
  obtain ⟨a, ha, haccount⟩ := Except.getElem?_of_mapM_eq_ok hmetas hl
  exact ⟨a.address, Listed.address_of_account haccount, by rw [ha]; rfl⟩

theorem exists_created {location : Location} (hl : accounts[place]? = some (.writableAt location)) :
    ∃ a, locate location = .ok a ∧ prepared.accounts[place]?.map (·.address) = some a :=
  exists_listed h hl

theorem exists_delegated {mint v : Address} (hv : (Reading.gem mint).value ctx node = .ok v)
    (hl : accounts[place]? = some l) (hlisted : l.address = .ok v)
    (hlocate : ctx.gem mint = .ok address) (hdata : node address = some data) :
    ∃ a : Address, a.toList = (data.drop 20).take 32 ∧
      prepared.accounts[place]?.map (·.address) = some a := by
  obtain ⟨a, ha, hplace⟩ := exists_listed h hl
  cases hlisted.symm.trans ha
  exact ⟨v, Reading.toList_of_value_gem hlocate hdata hv, hplace⟩

end Listed

theorem exists_prepares_numbered (ctx : Context) (payer : Address) (node : Address → Option Bytes)
    (c : NumberedCommand) (account : NumberedAccount)
    (hvalid : ∃ i, (c.command account).instruction 0 = .ok i) :
    ∃ result, Prepares ctx payer node (c.command account) result := by
  obtain ⟨next, hnext⟩ := c.exists_finds_prepare ctx payer node hvalid
  have hreadings : (c.command account).readings = account.readings := by
    cases c <;> rfl
  refine ⟨_, hnext account, ?_, ?_, ?_, ?_⟩
  · rw [hreadings]
    cases account with
    | numeration => exact .nil _
    | address a =>
      rw [NumberedAccount.value, bind_assoc]
      exact .cons fun _ ↦ .nil _
  · cases c <;> exact nofun
  · cases c <;> exact nofun
  · intro c' target address data hcommand hlocate hdata hholds
    obtain ⟨rfl, rfl⟩ := NumberedCommand.command_injective hcommand
    obtain ⟨g, hg⟩ :=
      Reading.Sound.exists_value (x := .general) ⟨address, data, hlocate, hdata, hholds⟩
    have hcount : c.counter g = data.wordAt c.counterOffset := by
      obtain ⟨h4, h41⟩ := Reading.wordAt_of_value_general hlocate hdata hg
      cases c with
      | withdrawRewards | processRewards | initRebalance => exact h4.symm
      | vote | finalizeProposal | executeProposal => exact h41.symm
    have hfound :
        (NumberedAccount.address target).value ctx node (c.location ctx.program) c.counter =
        resolve (c.location ctx.program) (some target) none (data.wordAt c.counterOffset) := by
      rw [NumberedAccount.value, hg, ← hcount]
      rfl
    -- With the number that is searched for, the other way to name the account goes on from there.
    unfold NumberedCommand.search
    rw [hfound, resolve]
    refine ⟨fun e he ↦ ?_, fun n hn ↦ ?_⟩
    · rw [he]
      rfl
    · have hnumeration := hnext (.numeration n)
      rw [NumberedAccount.value, resolve_numeration (derive_of_numerationOf hn)] at hnumeration
      rw [hn]
      exact hnumeration

theorem exists_prepares (ctx : Context) (payer : Address) (node : Address → Option Bytes)
    (hvalid : ∃ i, command.instruction 0 = .ok i) :
    ∃ result, Prepares ctx payer node command result := by
  obtain ⟨i, hi⟩ := hvalid
  cases command with
  | delegateGem | finalizeRebalance | uploadUris | resetUris =>
    exact ⟨_, prepares_of_readings_nil (finds_checked_bind hi (finds_ofExcept _)) rfl rfl rfl
      fun c _ ↦ by cases c <;> exact nofun⟩
  | mintGem =>
    exact ⟨_, prepares_of_readings_nil
      (finds_checked_bind hi ((finds_ofExcept _).bind fun _ ↦ finds_ofExcept _)) rfl rfl rfl
      fun c _ ↦ by cases c <;> exact nofun⟩
  | setUp =>
    exact ⟨_, prepares_of_readings_nil
      (finds_checked_bind hi ((finds_ofExcept _).bind fun _ ↦ (finds_ofExcept _).bind fun _ ↦
        finds_ofExcept _))
      rfl rfl rfl fun c _ ↦ by cases c <;> exact nofun⟩
  | redeemGem mint =>
    refine ⟨_, finds_checked_bind hi ((Reading.finds_read (.gem mint)).bind fun _ ↦
      (finds_ofExcept _).bind fun _ ↦ finds_ofExcept _), .cons fun _ ↦
        .nil _, ?_, nofun, fun c _ _ _ h ↦ ?_⟩
    · intro _ _ address data prepared hplace hlocate hdata hresult
      cases hplace
      obtain ⟨v, hv, h⟩ := Except.bind_eq_ok_iff.1 hresult
      obtain ⟨_, -, h⟩ := Except.bind_eq_ok_iff.1 h
      exact exists_delegated h hv rfl rfl hlocate hdata
    · cases c <;> cases h
  | undelegateGem mint =>
    refine ⟨_,
      finds_checked_bind hi ((Reading.finds_read (.gem mint)).bind fun _ ↦ finds_ofExcept _),
      .cons fun _ ↦ .nil _, ?_, nofun, fun c _ _ _ h ↦ ?_⟩
    · intro _ _ address data prepared hplace hlocate hdata hresult
      cases hplace
      obtain ⟨v, hv, h⟩ := Except.bind_eq_ok_iff.1 hresult
      exact exists_delegated h hv rfl rfl hlocate hdata
    · cases c <;> cases h
  | createVoteAccount =>
    refine ⟨_, finds_checked_bind hi ((Reading.finds_read .general).bind fun _ ↦ finds_ofExcept _),
      .cons fun _ ↦ .nil _, nofun, ?_, fun c _ _ _ h ↦ ?_⟩
    · intro _ _ _ address data prepared hplace hlocate hdata hresult
      cases hplace
      obtain ⟨g, hg, h⟩ := Except.bind_eq_ok_iff.1 hresult
      rw [(Reading.wordAt_of_value_general hlocate hdata hg).1]
      exact exists_created h rfl
    · cases c <;> cases h
  | openProposal mint =>
    refine ⟨_, finds_checked_bind hi ((Reading.finds_read (.gem mint)).bind fun _ ↦
      (Reading.finds_read .general).bind fun _ ↦ finds_ofExcept _), .cons fun _ ↦
        .cons fun _ ↦ .nil _,
      ?_, ?_, fun c _ _ _ h ↦ ?_⟩
    · intro _ _ address data prepared hplace hlocate hdata hresult
      cases hplace
      obtain ⟨v, hv, h⟩ := Except.bind_eq_ok_iff.1 hresult
      obtain ⟨_, -, h⟩ := Except.bind_eq_ok_iff.1 h
      exact exists_delegated h hv rfl rfl hlocate hdata
    · intro _ _ _ address data prepared hplace hlocate hdata hresult
      cases hplace
      obtain ⟨_, -, h⟩ := Except.bind_eq_ok_iff.1 hresult
      obtain ⟨g, hg, h⟩ := Except.bind_eq_ok_iff.1 h
      rw [(Reading.wordAt_of_value_general hlocate hdata hg).2]
      exact exists_created h rfl
    · cases c <;> cases h
  | withdrawRewards account mints level =>
    exact exists_prepares_numbered ctx payer node (.withdrawRewards mints level) account ⟨i, hi⟩
  | processRewards validatorId account level =>
    exact exists_prepares_numbered ctx payer node (.processRewards validatorId level)
      account ⟨i, hi⟩
  | initRebalance account level =>
    exact exists_prepares_numbered ctx payer node (.initRebalance level) account ⟨i, hi⟩
  | vote account approve mints level =>
    exact exists_prepares_numbered ctx payer node (.vote approve mints level) account ⟨i, hi⟩
  | finalizeProposal account level =>
    exact exists_prepares_numbered ctx payer node (.finalizeProposal level) account ⟨i, hi⟩
  | executeProposal account execution level =>
    exact exists_prepares_numbered ctx payer node (.executeProposal execution level) account ⟨i, hi⟩

/-- Until it is clear what to do, only accounts are read. Then an error ends the run, or the
instruction is sent. Before that the run only ends if it is given up. -/
inductive Follows (ctx : Context) (signers : List Signer) (cache : BlockhashCache) :
    Except ClientError Ledger.Instruction → List Exchange → BlockhashCache →
      Option (Except ClientError Submission) → Prop
  | givenUp {outcome : Except ClientError Ledger.Instruction} {reads : List Exchange}
      (hreads : ∀ e ∈ reads, ∃ address, e.query = .account address)
      (hgivenUp : ∃ e ∈ reads, e.answer = none) :
      Follows ctx signers cache outcome reads cache none
  | stopped {e : ClientError} {reads : List Exchange}
      (hreads : ∀ e ∈ reads, ∃ address, e.query = .account address) :
      Follows ctx signers cache (.error e) reads cache (some (.error e))
  | sent {i : Ledger.Instruction} {reads rest : List Exchange} {cache' : BlockhashCache}
      {r : Option (Except ClientError Submission)}
      (hreads : ∀ e ∈ reads, ∃ address, e.query = .account address)
      (hsend : (ctx.send [i] signers cache).Trace rest cache' r) :
      Follows ctx signers cache (.ok i) (reads ++ rest) cache' r

theorem Follows.exists_of_ok {signers : List Signer} {cache cache' : BlockhashCache}
    {outcome : Except ClientError Ledger.Instruction} {exchanges : List Exchange}
    {submission : Submission}
    (h : Follows ctx signers cache outcome exchanges cache' (some (.ok submission))) :
    ∃ i, outcome = .ok i := by
  cases h with
  | sent => exact ⟨_, rfl⟩

def Settles (ctx : Context) (payer : Signer) (cache : BlockhashCache)
    (node : Address → Option Bytes) (command : Command)
    (outcome : Except ClientError Ledger.Instruction) : Prop :=
  ∀ exchanges cache' r, (command.run ctx payer cache).Trace exchanges cache' r →
    AnsweredFrom node exchanges →
    Follows ctx (command.signers payer) cache outcome exchanges cache' r

theorem compose_ok (program : Address) (prepared : Prepared) : compose program (.ok prepared) =
    (⟨program, prepared.accounts, ·⟩) <$>
      (Program.Instruction.layout.encode prepared.instruction).mapError .codec :=
  rfl

theorem settles_of_finds {payer : Signer} {cache : BlockhashCache}
    (h : Finds node (command.prepare ctx payer.address : Attempt BlockhashCache Prepared) result) :
    Settles ctx payer cache node command (compose ctx.program result) := by
  intro exchanges cache' r hrun hnode
  rcases trace_bind_cases hrun with
    ⟨stop, hprepare, hr⟩ | ⟨reads, rest, t, prepared, he, hprepare, hsend⟩
  · obtain ⟨ht, -, hreads, -⟩ := reads_prepare command _ _ _ hprepare
    subst ht
    cases stop with
    | none =>
      rw [hr]
      exact .givenUp hreads hprepare.exists_unanswered
    | some e =>
      rw [hr, ← h _ _ _ _ hprepare hnode]
      exact .stopped hreads
  · obtain ⟨ht, -, hreads, -⟩ := reads_prepare command _ _ _ hprepare
    subst ht
    rw [he] at hnode ⊢
    rw [← h _ _ _ _ hprepare hnode.of_append.1]
    cases hdata :
        (Program.Instruction.layout.encode prepared.instruction).mapError ClientError.codec with
    | error e =>
      rw [ofExcept_bind_of_error _ _ hdata] at hsend
      obtain ⟨hrest, hcache, hr⟩ := trace_done_iff.1 hsend
      rw [compose_ok, hdata, hrest, hcache, hr, List.append_nil]
      exact .stopped hreads
    | ok data =>
      rw [ofExcept_bind_of_ok _ _ hdata] at hsend
      rw [compose_ok, hdata]
      exact .sent hreads hsend

theorem exists_prepared_of_compose {program : Address} {i : Ledger.Instruction}
    (h : compose program result = .ok i) :
    ∃ prepared, result = .ok prepared ∧ i.accounts = prepared.accounts := by
  obtain ⟨prepared, hprepared, h⟩ := Except.bind_eq_ok_iff.1 h
  obtain ⟨data, -, h⟩ := Except.bind_eq_ok_iff.1 h
  rw [← Except.ok.inj h]
  exact ⟨prepared, hprepared, rfl⟩

/-- Whatever the node has there, the accounts that are read decide what a command with valid
arguments comes to. The first one that is absent, too short or not decodable ends it before anything
else is asked for, so that nothing is sent unless all are sound. Otherwise the vote account of a
gem, the number of what is created, and the greatest number in a search are the bytes at their
places in the data, whatever follows. -/
theorem run_reads_safely (ctx : Context) (payer : Signer) (cache : BlockhashCache)
    (node : Address → Option Bytes) (command : Command)
    (hvalid : ∃ i, command.instruction 0 = .ok i) :
    ∃ outcome, Settles ctx payer cache node command outcome ∧
      (∀ before x after address e, command.readings = before ++ x :: after →
        (∀ y ∈ before, y.Sound ctx node) →
        locate (x.location ctx.program) = .ok address → x.Faulty address (node address) e →
          outcome = .error e) ∧
      (∀ i, outcome = .ok i → ∀ x ∈ command.readings, x.Sound ctx node) ∧
      (∀ mint place address data i, command.delegated? = some (mint, place) →
        ctx.gem mint = .ok address →
        node address = some data → outcome = .ok i →
          ∃ a : Address, a.toList = (data.drop 20).take 32 ∧
            i.accounts[place]?.map (·.address) = some a) ∧
      (∀ location offset place address data i, command.created? = some (location, offset, place) →
        ctx.single .general = .ok address → node address = some data → outcome = .ok i →
          ∃ a, locate (location ctx.program (data.wordAt offset)) = .ok a ∧
            i.accounts[place]?.map (·.address) = some a) ∧
      ∀ (c : NumberedCommand) target address data, command = c.command (.address target) →
        ctx.single .general = .ok address → node address = some data → Reading.general.Holds data →
          (∀ e, c.search ctx data target = .error e → outcome = .error e) ∧
          ∀ n, c.search ctx data target = .ok n →
            Settles ctx payer cache node (c.command (.numeration n)) outcome := by
  obtain ⟨result, h⟩ := exists_prepares ctx payer.address node hvalid
  refine ⟨compose ctx.program result, settles_of_finds h.finds, ?_, ?_, ?_, ?_, ?_⟩
  · intro before x after address e hreadings hbefore hlocate hfaulty
    have hinOrder := h.inOrder
    rw [hreadings] at hinOrder
    rw [hinOrder.eq_error hbefore hlocate hfaulty]
    rfl
  · intro i hi
    obtain ⟨prepared, hprepared, -⟩ := exists_prepared_of_compose hi
    exact h.inOrder.sound hprepared
  · intro mint place address data i hplace hlocate hdata hi
    obtain ⟨prepared, hprepared, haccounts⟩ := exists_prepared_of_compose hi
    rw [haccounts]
    exact h.delegated mint place address data prepared hplace hlocate hdata hprepared
  · intro location offset place address data i hplace hlocate hdata hi
    obtain ⟨prepared, hprepared, haccounts⟩ := exists_prepared_of_compose hi
    rw [haccounts]
    exact h.created location offset place address data prepared hplace hlocate hdata hprepared
  · intro c target address data hcommand hlocate hdata hholds
    obtain ⟨herror, hok⟩ := h.searched c target address data hcommand hlocate hdata hholds
    refine ⟨fun e he ↦ ?_, fun n hn ↦ settles_of_finds (hok n hn)⟩
    rw [herror e he]
    rfl

theorem run_reads_safely_openProposal :
    let payer : Signer :=
      ⟨0, .ofNat 0x8a88e3dd7409f195fd52db2d3cba5d72ca6709bf1d94121bf3748801b40f6f5c, .inMemory⟩
    let ctx : Context := ⟨⟨.replicate 32 4⟩, none, none, some 5⟩
    let command : Command := .openProposal ⟨.replicate 32 6⟩ (.config (.initialRedemptionFee 3)) 0
    let gem : Address := .ofNat 0x51365f76d9f788e2817ece679aef6779c9b5bd34217f7c723f130af0e9bcdf7e
    let general : Address :=
      .ofNat 0x98363ca3a1836351685f700c5ea998995d9553d13c25e4ea32829e0e984fab28
    (∃ exchanges cache' i,
      (command.run ctx payer (.empty 0)).Trace exchanges cache' (some (.ok ⟨"accepted"⟩)) ∧
      Follows ctx [payer] (.empty 0) (.ok i) exchanges cache' (some (.ok ⟨"accepted"⟩)) ∧
      i.accounts[1]?.map (·.address) = some (.ofNat 0x200000000000000000000) ∧
      i.accounts[2]?.map (·.address) =
        some (.ofNat 0x6b9d1b76d43472cdd7c3c54d80bc8aee93b90fb4a0a6d6f82fb8fe8f2349f188)) ∧
    ∀ cache,
      Settles ctx payer cache (fun a ↦ if a = gem then some (.replicate 52 0) else none) command
        (.error (.notFound (.account "general" general))) := by
  intro payer ctx command gem general
  let data : Bytes := [28, 43, 14, 107, 9] ++ .replicate 36 0 ++ [2] ++ .replicate 19 0 ++ [7]
  let answer := NumberedCommand.accepting data
    ⟨Bytes.bigEndian 32 0x4a153a2c1c664de2fa81f7e239341ae2613fb81bf2d6aaba6972f1ecc090cc13 ++
      Bytes.bigEndian 32 0x8b16ccbab0597164741323023f4b7415e7ad8caa088cfab7bb68ae354e6cf300, rfl⟩
  have hvalid : ∃ i, command.instruction 0 = .ok i := ⟨_, rfl⟩
  have hgem : ctx.gem ⟨.replicate 32 6⟩ = .ok gem := by
    decide +kernel
  have hgeneral : ctx.single .general = .ok general := by
    decide +kernel
  constructor
  · obtain ⟨moments, h, hanswered⟩ :=
      exists_answered_of_run answer (command.run ctx payer (.empty 0)) 0
    have hr :
        ((command.run ctx payer (.empty 0)).run (m := Id)
            (fun query ↦ (0, answer query)) none 0).2.2 =
        some (.ok ⟨"accepted"⟩) := by
      decide +kernel
    rw [hr] at h
    obtain ⟨outcome, hsettles, -, -, hdelegated, hcreated, -⟩ :=
      run_reads_safely ctx payer (.empty 0) (fun _ ↦ some data) command hvalid
    have hfollows :=
      hsettles _ _ _ h.trace fun address answer hmem ↦ Option.some.inj (hanswered _ hmem)
    obtain ⟨i, rfl⟩ := hfollows.exists_of_ok
    obtain ⟨v, hv, hdelegatedAt⟩ := hdelegated _ _ _ _ i rfl hgem rfl rfl
    obtain ⟨a, ha, hcreatedAt⟩ := hcreated _ _ _ _ _ i rfl hgeneral rfl rfl
    have hv' : v = .ofNat 0x200000000000000000000 :=
      Address.toList_injective (hv.trans (by decide +kernel))
    have ha' : locate (.proposal ctx.program (data.wordAt 41)) =
        .ok (.ofNat 0x6b9d1b76d43472cdd7c3c54d80bc8aee93b90fb4a0a6d6f82fb8fe8f2349f188) := by
      decide +kernel
    rw [hv'] at hdelegatedAt
    rw [Except.ok.inj (ha.symm.trans ha')] at hcreatedAt
    exact ⟨_, _, i, h.trace, hfollows, hdelegatedAt, hcreatedAt⟩
  · intro cache
    obtain ⟨outcome, hsettles, hfaulty, -⟩ := run_reads_safely ctx payer cache
      (fun a ↦ if a = gem then some (.replicate 52 0) else none) command hvalid
    have houtcome : outcome = .error (.notFound (.account "general" general)) := by
      refine hfaulty [.gem ⟨.replicate 32 6⟩] .general [] general _ rfl ?_ hgeneral ?_
      · simp only [List.forall_mem_singleton]
        exact ⟨gem, _, hgem, if_pos rfl, Nat.le_refl 52⟩
      · rw [if_neg (by decide +kernel)]
        exact .absent .general
    rwa [houtcome] at hsettles

end Command

end ValidatorClient
