import ValidatorClient.Proofs.Command.Run
import ValidatorClient.Proofs.Context.Determined
import ValidatorClient.Proofs.Program.Resolve

namespace ValidatorClient

open Ledger Program Attempt Process

namespace Context

variable {σ : Type} {s s' : σ} {ctx : Context} {location : UInt32 → Location}
  {counter : GeneralAccount → UInt32} {account : NumberedAccount} {exchanges : List Exchange}
  {a : Address} {n : UInt32}

/-- Whatever the node answers, a number is not found for an address that is not its own. -/
theorem locate_of_resolveNumbered
    (h : (ctx.resolveNumbered location counter account s).Trace exchanges s' (some (.ok (a, n)))) :
    locate (location n) = .ok a := by
  cases account with
  | numeration m => exact locate_of_resolve (Option.some.inj (trace_ofExcept_iff.1 h).2.2).symm
  | address target =>
    rcases trace_bind_cases h with ⟨stop, -, hr⟩ | ⟨_, _, _, _, -, -, h⟩
    · exact absurd hr.symm (stop_ne_ok stop _)
    · exact locate_of_resolve (Option.some.inj (trace_ofExcept_iff.1 h).2.2).symm

theorem resolveNumbered_address {general : Address} {data : Bytes} {g : GeneralAccount}
    (hsingle : ctx.single .general = .ok general)
    (hgeneral : readAccount GeneralAccount.layout data = .ok g) (s : σ) :
    ∃ next : (Query.account general).Answer → Process σ (Except ClientError (Address × UInt32)),
      ctx.resolveNumbered location counter (.address a) s = .wait s (.account general) next ∧
        next (Except.ok (some data)) = .done s (resolve location (some a) none (counter g)) := by
  rw [resolveNumbered, generalAccount, bind_apply, ofExcept_bind_of_ok _ _ hsingle]
  refine ⟨_, rfl, ?_⟩
  change Process.bind _
    (Process.bind _ (Process.done s ((readAccount GeneralAccount.layout data).mapError _))) = _
  rw [hgeneral]
  rfl

end Context

/-- What takes a numbered account, without this account. -/
inductive NumberedCommand where
  | withdrawRewards (mints : List Address) (logLevel : UInt8)
  | processRewards (validatorId : Address) (logLevel : UInt8)
  | initRebalance (logLevel : UInt8)
  | vote (approve : Bool) (mints : List Address) (logLevel : UInt8)
  | finalizeProposal (logLevel : UInt8)
  | executeProposal (execution : Execution) (logLevel : UInt8)

namespace NumberedCommand

variable {σ : Type} {ctx : Context}

def command (account : NumberedAccount) : NumberedCommand → Command
  | withdrawRewards mints level => .withdrawRewards account mints level
  | processRewards validatorId level => .processRewards validatorId account level
  | initRebalance level => .initRebalance account level
  | vote approve mints level => .vote account approve mints level
  | finalizeProposal level => .finalizeProposal account level
  | executeProposal execution level => .executeProposal account execution level

def location (program : Address) : NumberedCommand → UInt32 → Location
  | withdrawRewards _ _ | processRewards _ _ | initRebalance _ => .voteAccount program
  | vote _ _ _ | finalizeProposal _ | executeProposal _ _ => .proposal program

def counter : NumberedCommand → GeneralAccount → UInt32
  | withdrawRewards _ _ | processRewards _ _ | initRebalance _ => (·.voteAccountCount)
  | vote _ _ _ | finalizeProposal _ | executeProposal _ _ => (·.proposalCount)

/-- Other arguments may be refused at once. Apart from that the account is found first, and then
nothing more is asked. -/
def FindsFirst (act : NumberedAccount → Attempt σ Prepared)
    (find : NumberedAccount → Attempt σ (Address × UInt32)) : Prop :=
  (∃ e, ∀ account s, act account s = .done s (.error e)) ∨
    ∃ next : Address × UInt32 → Attempt σ Prepared,
      (∀ account s, act account s = (find account >>= next) s) ∧
      ∀ found, ∃ prepared, ∀ s, next found s = .done s prepared

theorem findsFirst_of_checked {x : Except ArgumentFault Program.Instruction}
    {find : NumberedAccount → Attempt σ (Address × UInt32)}
    {next : Program.Instruction → Address × UInt32 → Attempt σ Prepared}
    (h : ∀ i found, ∃ prepared, ∀ s, next i found s = .done s prepared) :
    FindsFirst (fun account ↦ Command.checked x >>= fun i ↦ find account >>= next i) find := by
  cases x with
  | error fault => exact .inl ⟨_, fun _ _ ↦ rfl⟩
  | ok i => exact .inr ⟨next i, fun _ _ ↦ rfl, h i⟩

theorem exists_of_checked_listing (x : Except ArgumentFault Program.Instruction)
    (accounts : List Command.Listed) :
    ∃ prepared, ∀ s : σ,
      (Command.checked x >>= fun i ↦ Command.listing i accounts : Attempt σ Prepared) s =
      .done s prepared := by
  cases x with
  | error fault => exact ⟨_, fun _ ↦ rfl⟩
  | ok i => exact ⟨_, fun _ ↦ rfl⟩

theorem findsFirst_prepare (c : NumberedCommand) (ctx : Context) (payer : Address) :
    FindsFirst (σ := σ) (fun account ↦ (c.command account).prepare ctx payer)
      (ctx.resolveNumbered (c.location ctx.program) c.counter) := by
  cases c with
  | withdrawRewards | processRewards | initRebalance =>
    exact findsFirst_of_checked fun i found ↦ ⟨_, fun _ ↦ rfl⟩
  | vote | finalizeProposal | executeProposal =>
    exact .inr ⟨_, fun _ _ ↦ rfl, fun found ↦ exists_of_checked_listing _ _⟩

/-- The node knows a general account, and of the numbers that it counts this is the greatest with
this address. -/
structure Known (c : NumberedCommand) (ctx : Context) (answer : (query : Query) → query.Answer)
    (a : Address) (n : UInt32) (g : GeneralAccount) : Prop where
  general : ∃ general data, ctx.single .general = .ok general ∧
    answer (.account general) = Except.ok (some data) ∧
      readAccount GeneralAccount.layout data = .ok g
  located : locate (c.location ctx.program n) = .ok a
  counted : n ≤ c.counter g
  greatest : ∀ m, n < m → m ≤ c.counter g → locate (c.location ctx.program m) ≠ .ok a

theorem Known.exists_prepared {answer : (query : Query) → query.Answer} {a : Address} {n : UInt32}
    {g : GeneralAccount} {c : NumberedCommand} (h : c.Known ctx answer a n g) (payer : Address) :
    ∃ prepared : Except ClientError Prepared,
    (∀ s : σ, (c.command (.numeration n)).prepare ctx payer s = .done s prepared) ∧
    ∀ (s s' : σ) moments result,
      ((c.command (.address a)).prepare ctx payer s).Timed moments s' (some result) →
      (∀ e ∈ Moment.exchanges moments, e.AnsweredBy answer) →
      Moment.readings moments = [] ∧
      (result = prepared ∨ result = .error (.ledger .noDerivedAddress) ∧
        ∃ m, n < m ∧ m ≤ c.counter g ∧
          locate (c.location ctx.program m) = .error (.ledger .noDerivedAddress)) := by
  obtain ⟨⟨general, data, hsingle, hdata, hgeneral⟩, hn, hle, hgreatest⟩ := h
  rcases c.findsFirst_prepare ctx payer with ⟨e, herror⟩ | ⟨next, hprepare, hnext⟩
  · dsimp only at herror
    refine ⟨.error e, herror _, fun s s' moments result h _ ↦ ?_⟩
    rw [herror] at h
    obtain ⟨hm, -, hr⟩ := timed_done_iff.1 h
    exact ⟨by rw [hm, Moment.readings_nil], .inl (Option.some.inj hr)⟩
  dsimp only at hprepare
  obtain ⟨prepared, hprepared⟩ := hnext (a, n)
  refine ⟨prepared, fun s ↦ ?_, fun s s' moments result h hanswered ↦ ?_⟩
  · rw [hprepare, Context.resolveNumbered,
      ofExcept_bind_of_ok _ _ (resolve_numeration hn), hprepared]
  · obtain ⟨ask, hask, hfound⟩ := Context.resolveNumbered_address hsingle hgeneral s
    rw [hprepare, bind_apply, hask] at h
    rcases timed_wait_iff.1 h with ⟨-, -, hr⟩ | ⟨given, rest, hm, hrest⟩
    · cases hr
    rw [hm, Moment.exchanges_exchange, List.forall_mem_cons] at hanswered
    rw [Option.some.inj hanswered.1, hdata, hfound] at hrest
    rw [hm, Moment.readings_exchange]
    rcases resolve_address hn hle hgreatest with hresolve | ⟨hresolve, hnone⟩
    · rw [hresolve] at hrest
      have hlast : (next (a, n) s).Timed rest s' (some result) := hrest
      rw [hprepared] at hlast
      obtain ⟨hnil, -, hr⟩ := timed_done_iff.1 hlast
      exact ⟨by rw [hnil, Moment.readings_nil], .inl (Option.some.inj hr)⟩
    · rw [hresolve] at hrest
      obtain ⟨hnil, -, hr⟩ := timed_done_iff.1 hrest
      exact ⟨by rw [hnil, Moment.readings_nil], .inr ⟨Option.some.inj hr, hnone⟩⟩

end NumberedCommand

namespace Command

variable {answer : (query : Query) → query.Answer} {ctx : Context} {payer : Signer}
  {command : Command} {cache cache' : BlockhashCache} {moments : List Moment}
  {r : Option (Except ClientError Submission)}

def compose (program : Address) (prepared : Except ClientError Prepared) :
    Except ClientError Ledger.Instruction := do
  let prepared ← prepared
  let data ← (Program.Instruction.layout.encode prepared.instruction).mapError .codec
  return ⟨program, prepared.accounts, data⟩

theorem timed_run_answered (h : (command.run ctx payer cache).Timed moments cache' r)
    (hanswered : ∀ e ∈ Moment.exchanges moments, e.AnsweredBy answer) :
    ∃ reads rest prepared,
      (command.prepare ctx payer.address cache).Timed reads cache (some prepared) ∧
      (∀ e ∈ Moment.exchanges reads, e.AnsweredBy answer) ∧
      (∀ e ∈ Moment.exchanges rest, e.AnsweredBy answer) ∧
      Moment.readings moments = Moment.readings reads ++ Moment.readings rest ∧
      Assembler.submissions (Moment.exchanges moments) =
        Assembler.submissions (Moment.exchanges rest) ∧
      (∀ e, compose ctx.program prepared = .error e → rest = [] ∧ r = some (.error e)) ∧
      ∀ i, compose ctx.program prepared = .ok i →
        (ctx.send [i] (command.signers payer) cache).Timed rest cache' r := by
  obtain ⟨reads, rest, t, prepared, hm, hprepare, hreads, hrest, herror, hok⟩ :=
    timed_bind_answered h hanswered
  obtain ⟨ht, -, hasked, -⟩ := reads_prepare command _ _ _ hprepare.trace
  subst ht
  have hnone : Assembler.submissions (Moment.exchanges reads) = [] := by
    refine Assembler.submissions_eq_nil fun e he _ _ hsubmit ↦ ?_
    obtain ⟨_, hquery⟩ := hasked e he
    cases hquery.symm.trans hsubmit
  refine ⟨reads, rest, prepared, hprepare, hreads, hrest,
    by rw [hm, Moment.readings_append], ?_, ?_, ?_⟩
  · rw [hm, Moment.exchanges_append, Assembler.submissions_append, hnone, List.nil_append]
  · intro e he
    rcases Except.bind_eq_error_iff.1 he with he | ⟨p, hp, he⟩
    · exact ⟨(herror e he).1, (herror e he).2.2⟩
    rcases Except.bind_eq_error_iff.1 he with he | ⟨_, -, he⟩
    · have hsend := hok p hp
      rw [ofExcept_bind_of_error _ _ he] at hsend
      obtain ⟨hnil, -, hr⟩ := timed_done_iff.1 hsend
      exact ⟨hnil, hr⟩
    · cases he
  · intro i hi
    obtain ⟨p, hp, hi⟩ := Except.bind_eq_ok_iff.1 hi
    obtain ⟨data, hdata, hi⟩ := Except.bind_eq_ok_iff.1 hi
    have hsend := hok p hp
    rw [ofExcept_bind_of_ok _ _ hdata] at hsend
    rw [← Except.ok.inj hi]
    exact hsend

end Command

namespace NumberedCommand

variable {answer : (query : Query) → query.Answer} {ctx : Context} {payer : Signer} {a : Address}
  {n : UInt32} {g : GeneralAccount} {c : NumberedCommand}
  {cache₁ cache₂ cache₁' cache₂' : BlockhashCache} {moments₁ moments₂ : List Moment}
  {r₁ r₂ : Option (Except ClientError Submission)}

theorem signers_command (c : NumberedCommand) (account : NumberedAccount) (payer : Signer) :
    (c.command account).signers payer = [payer] := by
  cases c <;> rfl

theorem Known.runs_alike (h : c.Known ctx answer a n g)
    (h₁ : ((c.command (.address a)).run ctx payer cache₁).Timed moments₁ cache₁' r₁)
    (h₂ : ((c.command (.numeration n)).run ctx payer cache₂).Timed moments₂ cache₂' r₂)
    (hanswered₁ : ∀ e ∈ Moment.exchanges moments₁, e.AnsweredBy answer)
    (hanswered₂ : ∀ e ∈ Moment.exchanges moments₂, e.AnsweredBy answer)
    (hsame : Context.SameReference answer cache₁ moments₁ cache₂ moments₂) :
    (r₁ = r₂ ∧ Assembler.submissions (Moment.exchanges moments₁) =
        Assembler.submissions (Moment.exchanges moments₂)) ∨
      r₁ = some (.error (.ledger .noDerivedAddress)) ∧
      Assembler.submissions (Moment.exchanges moments₁) = [] ∧
        ∃ m, n < m ∧ m ≤ c.counter g ∧
          locate (c.location ctx.program m) = .error (.ledger .noDerivedAddress) := by
  obtain ⟨prepared, hnumeration, haddress⟩ := h.exists_prepared payer.address
  obtain ⟨reads₁, rest₁, prepared₁, hprepare₁, hreads₁, hrest₁, hclock₁, hsubmitted₁,
      herror₁, hsend₁⟩ :=
    Command.timed_run_answered h₁ hanswered₁
  obtain ⟨reads₂, rest₂, prepared₂, hprepare₂, -, hrest₂, hclock₂, hsubmitted₂, herror₂, hsend₂⟩ :=
    Command.timed_run_answered h₂ hanswered₂
  rw [hnumeration] at hprepare₂
  obtain ⟨hnil₂, -, hprepared₂⟩ := timed_done_iff.1 hprepare₂
  cases hprepared₂
  obtain ⟨hnil₁, hprepared₁ | ⟨hprepared₁, hnone⟩⟩ := haddress _ _ _ _ hprepare₁ hreads₁
  · left
    rw [hnil₁, List.nil_append] at hclock₁
    rw [hnil₂, Moment.readings_nil, List.nil_append] at hclock₂
    rw [Context.SameReference, hclock₁, hclock₂] at hsame
    subst hprepared₁
    rw [hsubmitted₁, hsubmitted₂]
    cases hcompose : Command.compose ctx.program prepared₁ with
    | error e =>
      obtain ⟨he₁, hr₁⟩ := herror₁ e hcompose
      obtain ⟨he₂, hr₂⟩ := herror₂ e hcompose
      rw [he₁, he₂, hr₁, hr₂]
      exact ⟨rfl, rfl⟩
    | ok i =>
      have hsend₁ := hsend₁ i hcompose
      have hsend₂ := hsend₂ i hcompose
      rw [signers_command] at hsend₁ hsend₂
      exact Context.send_determined hsend₁ hsend₂ hrest₁ hrest₂ hsame
  · right
    obtain ⟨he₁, hr₁⟩ := herror₁ _ (by rw [hprepared₁]; rfl)
    rw [hsubmitted₁, he₁]
    exact ⟨hr₁, rfl, hnone⟩

/-- Named by its address or by its number, an account makes the same command: with the same block
reference, the same is submitted and the result is the same. Only if a number above it has no
address at all, the search by address ends there, and nothing is submitted. Whatever the node
answers, what is found is the address of the number that is found with it. -/
theorem address_eq_numeration (c : NumberedCommand) (ctx : Context) (payer : Signer) :
    (∀ answer a n g cache₁ moments₁ cache₁' r₁ cache₂ moments₂ cache₂' r₂,
      c.Known ctx answer a n g →
      ((c.command (.address a)).run ctx payer cache₁).Timed moments₁ cache₁' r₁ →
      ((c.command (.numeration n)).run ctx payer cache₂).Timed moments₂ cache₂' r₂ →
      (∀ e ∈ Moment.exchanges moments₁, e.AnsweredBy answer) →
      (∀ e ∈ Moment.exchanges moments₂, e.AnsweredBy answer) →
      Context.SameReference answer cache₁ moments₁ cache₂ moments₂ →
      ∃ result, r₂ = some result ∧
        (r₁ = some result ∧ Assembler.submissions (Moment.exchanges moments₁) =
            Assembler.submissions (Moment.exchanges moments₂) ∨
          r₁ = some (.error (.ledger .noDerivedAddress)) ∧
            Assembler.submissions (Moment.exchanges moments₁) = [] ∧
            ∃ m, n < m ∧ m ≤ c.counter g ∧
              locate (c.location ctx.program m) = .error (.ledger .noDerivedAddress))) ∧
    (∀ (cache cache' : BlockhashCache) account exchanges a n,
      (ctx.resolveVoteAccount account cache).Trace exchanges cache' (some (.ok (a, n))) →
        locate (.voteAccount ctx.program n) = .ok a) ∧
    (∀ (cache cache' : BlockhashCache) account exchanges a n,
      (ctx.resolveProposal account cache).Trace exchanges cache' (some (.ok (a, n))) →
        locate (.proposal ctx.program n) = .ok a) ∧
    ∀ location target numeration upperBound a n,
      resolve location target numeration upperBound = .ok (a, n) →
      locate (location n) = .ok a := by
  refine ⟨?_, fun _ _ _ _ _ _ ↦ Context.locate_of_resolveNumbered,
    fun _ _ _ _ _ _ ↦ Context.locate_of_resolveNumbered, fun _ _ _ _ _ _ ↦ locate_of_resolve⟩
  intro answer a n g cache₁ moments₁ cache₁' r₁ cache₂ moments₂ cache₂' r₂ h h₁ h₂ hanswered₁
    hanswered₂ hsame
  obtain ⟨result, hr₂⟩ := h₂.exists_result hanswered₂
  refine ⟨result, hr₂, ?_⟩
  rw [← hr₂]
  exact h.runs_alike h₁ h₂ hanswered₁ hanswered₂ hsame

/-- A node with a general account, where everyone gives the same signature and every transaction is
accepted. -/
def accepting (general : Bytes) (signature : Signature) : (query : Query) → query.Answer
  | .blockReference => Except.ok ⟨.replicate 32 3, 42⟩
  | .submit _ _ => Except.ok ⟨"accepted"⟩
  | .account _ => Except.ok (some general)
  | .sign _ _ => Except.ok signature
  | .deviceAddress _ _ => none

theorem address_eq_numeration_finalizeProposal :
    let payer : Signer :=
      ⟨0, .ofNat 0x8a88e3dd7409f195fd52db2d3cba5d72ca6709bf1d94121bf3748801b40f6f5c, .inMemory⟩
    let ctx : Context := ⟨⟨.replicate 32 4⟩, none, none, some 5⟩
    let first : Address := .ofNat 0x46b9b1f3e15f10c2f6ea23d6baddb72b08f77b9ec41c066d50c3a0c5b66ca9cd
    ∃ moments₁ moments₂ cache₁ cache₂ wire lastValidHeight,
      ((Command.finalizeProposal (.address first) 0).run ctx payer (.empty 0)).Timed moments₁ cache₁
        (some (.ok ⟨"accepted"⟩)) ∧
      ((Command.finalizeProposal (.numeration 1) 0).run ctx payer (.empty 0)).Timed moments₂ cache₂
        (some (.ok ⟨"accepted"⟩)) ∧
      (wire, lastValidHeight) ∈ Assembler.submissions (Moment.exchanges moments₁) ∧
      Assembler.submissions (Moment.exchanges moments₁) =
          Assembler.submissions (Moment.exchanges moments₂) := by
  intro payer ctx first
  let c : NumberedCommand := .finalizeProposal 0
  let general : Address := .ofNat 0x98363ca3a1836351685f700c5ea998995d9553d13c25e4ea32829e0e984fab28
  let data : Bytes := [28, 43, 14, 107, 9] ++ .replicate 36 0 ++ [2] ++ .replicate 19 0
  let g : GeneralAccount := ⟨1796090652, 9, 0, 0, 0, 0, false, 2, 0, 0, []⟩
  let answer := accepting data
    ⟨Bytes.bigEndian 32 0x19db829d7b35c69129c512b80275c7c02527c5465b36307c8ea4befa0df2de05 ++
      Bytes.bigEndian 32 0x4b1f85d2d66539d9fbd515035f8d317ef2b7e8b8eff3251e978b77835e57c501, rfl⟩
  have hsecond : locate (c.location ctx.program 2) =
      .ok (.ofNat 0x6b9d1b76d43472cdd7c3c54d80bc8aee93b90fb4a0a6d6f82fb8fe8f2349f188) := by
    decide +kernel
  have htwo {m : UInt32} (hlt : 1 < m) (hle : m ≤ 2) : m = 2 :=
    UInt32.toNat_inj.1 (Nat.le_antisymm (UInt32.le_iff_toNat_le.1 hle) hlt)
  have hknown : c.Known ctx answer first 1 g := by
    refine ⟨⟨general, data, by decide +kernel, rfl, by decide +kernel⟩, by decide +kernel,
      by decide, ?_⟩
    intro m hlt hle
    rw [htwo hlt hle, hsecond]
    decide +kernel
  obtain ⟨moments₁, h₁, hanswered₁⟩ :=
    exists_answered_of_run answer ((c.command (.address first)).run ctx payer (.empty 0)) 0
  obtain ⟨moments₂, h₂, hanswered₂⟩ :=
    exists_answered_of_run answer ((c.command (.numeration 1)).run ctx payer (.empty 0)) 0
  have hr : (((c.command (.numeration 1)).run ctx payer (.empty 0)).run (m := Id)
      (fun query ↦ (0, answer query)) none 0).2.2 = some (.ok ⟨"accepted"⟩) := by
    decide +kernel
  rw [hr] at h₂
  have hsame : Context.SameReference answer (.empty 0) moments₁ (.empty 0) moments₂ :=
    fun _ _ _ _ ↦ rfl
  obtain ⟨result, hr₂, ⟨hr₁, hsubmitted⟩ | ⟨-, -, m, hlt, hle, hnone⟩⟩ :=
    (address_eq_numeration c ctx payer).1 _ _ _ _ _ _ _ _ _ _ _ _ hknown h₁ h₂ hanswered₁
      hanswered₂ hsame
  · rw [hr₁, ← hr₂] at h₁
    obtain ⟨wire, lastValidHeight, hmem⟩ := Command.exists_submit_of_ok h₁.trace
    exact ⟨moments₁, moments₂, _, _, wire, lastValidHeight, h₁, h₂,
      List.mem_filterMap.2 ⟨_, hmem, rfl⟩, hsubmitted⟩
  · rw [htwo hlt hle, hsecond] at hnone
    cases hnone

end NumberedCommand

end ValidatorClient
