import ValidatorClient.Context
import ValidatorClient.Proofs.Assembler.Unsigned

namespace ValidatorClient.Context

open Ledger Attempt Process

variable {ctx : Context} {instructions : List Ledger.Instruction} {payer : Signer}
  {others : List Signer} {cache cache' : BlockhashCache} {moments : List Moment}

def afterError (cache : BlockhashCache) : ClientError → BlockhashCache
  | .rpc _ => cache.invalidate
  | _ => cache

def afterAnswer (cache : BlockhashCache) : Option (Except RpcError Submission) → BlockhashCache
  | some (.error e) => afterError cache (.rpc e)
  | _ => cache

/-- All that sending can do where there is a payer, with the cache that it leaves and its result. -/
inductive Sent (ctx : Context) (instructions : List Ledger.Instruction) (payer : Signer)
    (others : List Signer) (cache : BlockhashCache) :
    List Moment → BlockhashCache → Option (Except ClientError Submission) → Prop
  | nothing (h : ctx.budget ++ instructions = []) :
      Sent ctx instructions payer others cache [] cache
        (some (.error (.invalidState .noInstructions)))
  | unfetched {now : Nat} {fetched : List Moment} {cache' : BlockhashCache}
      {stop : Option ClientError}
      (hopen : ctx.budget ++ instructions ≠ [])
      (hfetch : cache.Fetches now fetched cache' (stop.map .error)) :
      Sent ctx instructions payer others cache fetched cache' (stop.map .error)
  | uncompiled {now : Nat} {fetched : List Moment} {cache' : BlockhashCache}
      {reference : BlockReference}
      (hopen : ctx.budget ++ instructions ≠ [])
      (hfetch : cache.Fetches now fetched cache' (some (.ok reference)))
      (error : Ledger.Error) :
      Sent ctx instructions payer others cache fetched cache' (some (.error (.ledger error)))
  | unsigned {now : Nat} {fetched signed : List Moment} {cache' : BlockhashCache} {c : Compiled}
      {stop : Option ClientError} (hopen : ctx.budget ++ instructions ≠ [])
      (hfetch : cache.Fetches now fetched cache' (some (.ok c.reference)))
      (hsound : c.Sound (ctx.budget ++ instructions) payer.address)
      (hasked : ∀ e ∈ Moment.exchanges signed, ∃ signer ∈ payer :: others,
        e.query = .sign signer c.bytes)
      (hprompt : Prompt (Moment.exchanges signed) (stop.map (Except.error (α := Submission))))
      (hstop : ∀ e, stop = some e → c.Unsigned (payer :: others) (Moment.exchanges signed) e) :
      Sent ctx instructions payer others cache (fetched ++ signed) cache' (stop.map .error)
  | submitted {now : Nat} {fetched signed : List Moment} {cache' : BlockhashCache} {c : Compiled}
      {wire : Bytes}
      (hopen : ctx.budget ++ instructions ≠ [])
      (hfetch : cache.Fetches now fetched cache' (some (.ok c.reference)))
      (hsound : c.Sound (ctx.budget ++ instructions) payer.address)
      (hasked : ((Moment.exchanges signed).map (·.query)).Perm
        ((payer :: others).map fun signer ↦ .sign signer c.bytes))
      (hsucceeds : ∀ e ∈ Moment.exchanges signed, e.Succeeds) (hwire : c.wire = .ok wire)
      (answer : Option (Except RpcError Submission)) :
      Sent ctx instructions payer others cache
        (fetched ++ (signed ++ [.exchange ⟨.submit wire c.reference.lastValidHeight, answer⟩]))
        (afterAnswer cache' answer) (answer.map (·.mapError .rpc))

theorem start_add (instructions : List Ledger.Instruction) (feePayer : Address) :
    (Assembler.start feePayer).add instructions = .ok ⟨feePayer, instructions, .building, none⟩ :=
      rfl

theorem afterError_of_wire {c : Compiled} {e : ClientError} (h : c.wire = .error e) :
    afterError cache e = cache := by
  rcases Compiled.wire_eq_error h with ⟨-, _, _, he⟩ | ⟨_, he⟩
  all_goals
    rw [he]
    rfl

section Submit

variable {a : Assembler} {handle : ClientError → Attempt (Assembler × BlockhashCache) Submission}
  (hhandle : ∀ e st, handle e st = .done (st.1, afterError st.2 e) (.error e))
include hhandle

/-- Where only the cache is changed after an error, the answer of the node is the result. -/
theorem submit_of_wait {submitted : Assembler} {wire : Bytes} {lastValidHeight : UInt64}
    (h : Assembler.submit a = .wait submitted (.submit wire lastValidHeight)
      fun (answer : Except RpcError Submission) ↦ .done submitted (answer.mapError .rpc)) :
    (tryCatch (onLeft Assembler.submit) handle : Attempt (Assembler × BlockhashCache) Submission)
        (a, cache) =
      .wait (submitted, cache) (.submit wire lastValidHeight)
        fun (answer : Except RpcError Submission) ↦
          .done (submitted, afterAnswer cache (some answer)) (answer.mapError .rpc) := by
  change Process.bind _ ((Assembler.submit a).mapState (·, cache)) = _
  rw [h]
  change Process.wait _ _ _ = _
  congr 1
  funext answer
  cases answer with
  | ok submission => rfl
  | error e => exact hhandle (.rpc e) _

theorem submit_of_error {e : ClientError} (h : Assembler.submit a = .done a (.error e)) :
    (tryCatch (onLeft Assembler.submit) handle : Attempt (Assembler × BlockhashCache) Submission)
        (a, cache) = .done (a, afterError cache e) (.error e) := by
  change Process.bind _ ((Assembler.submit a).mapState (·, cache)) = _
  rw [h]
  exact hhandle e (a, cache)

end Submit

theorem checkOpen_building (feePayer : Address) (instructions : List Ledger.Instruction)
    (operation : String) :
    (⟨feePayer, instructions, .building, none⟩ : Assembler).checkOpen operation =
      if instructions = [] then .error (.invalidState .noInstructions) else .ok () := by
  cases instructions <;> rfl

theorem fetchReference_of_error {a : Assembler} {e : ClientError}
    (h : a.checkOpen "fetch a block reference" = .error e) :
    Assembler.fetchReference (a, cache) = .done (a, cache) (.error e) := by
  rw [Assembler.fetchReference, get_bind]
  dsimp only
  rw [ofExcept_bind_of_error _ _ h]

/-- Once the message is compiled, only the signers and the node are left to be asked. -/
theorem sent_of_compiled {a : Assembler} {c : Compiled} {now : Nat} {fetched rest : List Moment}
    {cache₁ : BlockhashCache}
    {handle : ClientError → Attempt (Assembler × BlockhashCache) Submission}
    {st : Assembler × BlockhashCache} {r : Option (Except ClientError Submission)}
    (hhandle : ∀ e st, handle e st = .done (st.1, afterError st.2 e) (.error e))
    (hopen : ctx.budget ++ instructions ≠ [])
    (hfetch : cache.Fetches now fetched cache₁ (some (.ok c.reference)))
    (hsound : c.Sound (ctx.budget ++ instructions) payer.address) (hphase : a.IsIn (.compiled c))
    (h : ((do
        onLeft (Assembler.sign (payer :: others))
        tryCatch (onLeft Assembler.submit) handle :
      Attempt (Assembler × BlockhashCache) Submission) (a, cache₁)).Timed rest st r) :
    Sent ctx instructions payer others cache (fetched ++ rest) st.2 r := by
  rcases timed_bind_cases h with ⟨stop, hsign, hr⟩ | ⟨signed, submitted, t, _, he, hsign, hsubmit⟩
  · obtain ⟨a', hsign, hst⟩ := timed_onLeft_iff.1 hsign
    have hstop (e : ClientError) (he : stop = some e) :
        c.Unsigned (payer :: others) (Moment.exchanges rest) e := by
      rw [he] at hsign
      exact Compiled.unsigned_of_sign hphase hsign.trace
    rw [hst, hr]
    rcases Assembler.trace_sign_of_compiled hphase hsign.trace with
      ⟨_, -, -, hnone, -, hr⟩ | ⟨planned, c', hsigners, hslots, hsigns, ha⟩
    · have hsome : stop = some _ := stop_injective hr
      refine .unsigned hopen hfetch hsound (by simp [hnone]) ?_ hstop
      rw [hnone, hsome]
      exact .nil _
    · exact .unsigned hopen hfetch hsound (hsigns.query_of_mem hsigners) hsigns.prompt.of_stop hstop
  · obtain ⟨a', hsign, ht⟩ := timed_onLeft_iff.1 hsign
    rcases Assembler.trace_sign_of_compiled hphase hsign.trace with
      ⟨_, -, -, -, -, hr⟩ | ⟨planned, c', hsigners, hslots, hsigns, ha'⟩
    · cases hr
    have hphase' : a'.IsIn (.compiled c') := ha' ▸ Assembler.isIn_enter a _
    have hasked := hsigns.query_of_mem hsigners
    have hperm := hsigns.perm_of_ok hsigners
    rw [ht] at hsubmit
    rw [he]
    cases hwire : c'.wire with
    | error e =>
      rw [submit_of_error hhandle (Assembler.submit_of_wire_error hphase' hwire),
        afterError_of_wire hwire] at hsubmit
      obtain ⟨hrest, hst, hr⟩ := timed_done_iff.1 hsubmit
      have hunsigned := Compiled.unsigned_of_wire hsound hsigners hslots hsigns hwire
      have hsent : Sent ctx instructions payer others cache (fetched ++ signed) cache₁
          ((some e).map .error) :=
        .unsigned hopen hfetch hsound hasked (.done hsigns.prompt.succeeds _) fun e' he' ↦
          Option.some.inj he' ▸ hunsigned
      rw [hrest, hst, hr, List.append_nil]
      exact hsent
    | ok wire =>
      -- The signatures that were stored changed neither the message nor its reference.
      obtain ⟨hsound', hreference⟩ := hsound.fills (hsigns.fills hslots)
      obtain ⟨slots, hc⟩ := (hsigns.fills hslots).exists_slots
      have hbytes : c'.bytes = c.bytes := by rw [hc]
      rw [submit_of_wait hhandle (Assembler.submit_of_wire hphase' hwire)] at hsubmit
      rw [← hreference] at hfetch
      rw [← hbytes] at hperm
      rcases timed_wait_iff.1 hsubmit with ⟨hrest, hst, hr⟩ | ⟨answer, rest, hrest, hsubmit⟩
      · rw [hrest, hst, hr]
        exact .submitted hopen hfetch hsound' hperm hsigns.prompt.succeeds hwire none
      · obtain ⟨hnil, hst, hr⟩ := timed_done_iff.1 hsubmit
        rw [hrest, hnil, hst, hr]
        exact .submitted hopen hfetch hsound' hperm hsigns.prompt.succeeds hwire (some answer)

theorem compile_eq_error {a : Assembler} {reference : BlockReference} {e : ClientError}
    (h : a.compile reference = .error e) : ∃ error, e = .ledger error := by
  rcases Except.bind_eq_error_iff.1 h with h | ⟨m, -, h⟩
  · obtain ⟨error, -, he⟩ := Except.mapError_eq_error_iff.1 h
    exact ⟨error, he.symm⟩
  · rcases Except.bind_eq_error_iff.1 h with h | ⟨bytes, -, h⟩
    · obtain ⟨error, -, he⟩ := Except.mapError_eq_error_iff.1 h
      exact ⟨error, he.symm⟩
    · cases h

theorem sent_of_timed {r : Option (Except ClientError Submission)}
    (h : (ctx.send instructions (payer :: others) cache).Timed moments cache' r) :
    Sent ctx instructions payer others cache moments cache' r := by
  rw [send, ofExcept_bind_of_ok _ _ (start_add _ _)] at h
  obtain ⟨st, hsend, hcache⟩ := timed_withOwn_iff.1 h
  rw [discard_bind] at hsend
  have hopen :=
    checkOpen_building payer.address (ctx.budget ++ instructions) "fetch a block reference"
  -- Without instructions nothing is asked. Otherwise the reference comes first, then the message.
  by_cases hempty : ctx.budget ++ instructions = []
  · rw [if_pos hempty] at hopen
    rw [bind_apply, fetchReference_of_error hopen] at hsend
    obtain ⟨hm, hst, hr⟩ := timed_done_iff.1 hsend
    rw [hm, hcache, hst, hr]
    exact .nothing hempty
  rw [if_neg hempty] at hopen
  rcases timed_bind_cases hsend with
    ⟨stop, hfetched, hr⟩ | ⟨fetched, rest, t, _, hm, hfetched, hrest⟩
  · obtain ⟨now, cache₁,
      ⟨stop', hfetch, hst, hstop⟩ |
        ⟨reference, hfetch, ⟨e, hcompile, hst, hstop⟩ | ⟨_, -, -, hstop⟩⟩⟩ :=
        Assembler.timed_fetchReference hopen hfetched
    · rw [hcache, hst, hr, stop_injective hstop]
      exact .unfetched hempty hfetch
    · have hsome : stop = some e := stop_injective hstop
      obtain ⟨error, he⟩ := compile_eq_error hcompile
      rw [hcache, hst, hr, hsome, he]
      exact .uncompiled hempty hfetch error
    · exact absurd hstop (stop_ne_ok stop _)
  · obtain ⟨now, cache₁, ⟨stop, -, -, hstop⟩ | ⟨reference, hfetch, ⟨_, -, -, hstop⟩ |
      ⟨a, hcompile, ht, -⟩⟩⟩ := Assembler.timed_fetchReference hopen hfetched
    · exact absurd hstop.symm (stop_ne_ok stop _)
    · cases hstop
    · obtain ⟨c, ha, hreference, hsound, -⟩ := Compiled.sound_of_compile hcompile
      rw [ht, ha] at hrest
      rw [hm, hcache]
      refine sent_of_compiled (fun e _ ↦ ?_) hempty (hreference ▸ hfetch) hsound ⟨rfl, rfl⟩ hrest
      cases e <;> rfl

theorem prompt_submit (wire : Bytes) (lastValidHeight : UInt64)
    (answer : Option (Except RpcError Submission)) :
    Prompt [⟨.submit wire lastValidHeight, answer⟩] (answer.map (·.mapError ClientError.rpc)) := by
  rcases answer with _ | e | submission
  · exact .one_givenUp _
  · exact .one_failed (.submit e)
  · exact .done (by simpa using .submit submission) _

theorem Sent.prompt {r : Option (Except ClientError Submission)}
    (h : Sent ctx instructions payer others cache moments cache' r) :
    Prompt (Moment.exchanges moments) r := by
  cases h with
  | nothing => exact .nil _
  | unfetched _ hfetch => exact hfetch.prompt.of_stop
  | uncompiled _ hfetch error => exact .done hfetch.prompt.succeeds _
  | unsigned _ hfetch _ _ hprompt =>
    rw [Moment.exchanges_append]
    exact hprompt.append hfetch.prompt.succeeds
  | submitted _ hfetch _ _ hsucceeds _ answer =>
    rw [Moment.exchanges_append, Moment.exchanges_append]
    exact ((prompt_submit _ _ answer).append hsucceeds).append hfetch.prompt.succeeds

/-- Exchanges in the order of their kinds: at most one block reference is asked for, then the
signers sign one message for the reference, then at most one transaction is submitted, which all of
them have signed. -/
structure Ordered (signers : List Signer) (cache : BlockhashCache)
    (fetched signed submitted : List Exchange) (r : Option (Except ClientError Submission)) :
    Prop where
  fetches : (∀ e ∈ fetched, e.query = .blockReference) ∧ fetched.length ≤ 1
  signs : signed ≠ [] → ∃ (reference : BlockReference) (m : Message) (bytes : Bytes),
    (fetched = [⟨.blockReference, some (Except.ok reference)⟩] ∨
      fetched = [] ∧ ∃ now, cache.live? now = some reference) ∧
    m.blockhash = reference.blockhash ∧ m.serialize = .ok bytes ∧
    ∀ e ∈ signed, ∃ signer ∈ signers, e.query = .sign signer bytes
  submits : submitted = [] ∧ (∀ submission, r ≠ some (.ok submission)) ∨
    ∃ bytes wire lastValidHeight, ∃ answer : Option (Except RpcError Submission),
      submitted = [⟨.submit wire lastValidHeight, answer⟩] ∧ r = answer.map (·.mapError .rpc) ∧
      (signed.map (·.query)).Perm (signers.map fun signer ↦ .sign signer bytes) ∧
      ∀ e ∈ signed, e.Succeeds

theorem signs_of_sound {now : Nat} {fetched : List Moment} {signed : List Exchange} {c : Compiled}
    {signers : List Signer} {feePayer : Address}
    (hfetch : cache.Fetches now fetched cache' (some (.ok c.reference)))
    (hsound : c.Sound instructions feePayer)
    (hasked : ∀ e ∈ signed, ∃ signer ∈ signers, e.query = .sign signer c.bytes) :
    ∃ (reference : BlockReference) (m : Message) (bytes : Bytes),
      (Moment.exchanges fetched = [⟨.blockReference, some (Except.ok reference)⟩] ∨
        Moment.exchanges fetched = [] ∧ ∃ now, cache.live? now = some reference) ∧
      m.blockhash = reference.blockhash ∧ m.serialize = .ok bytes ∧
      ∀ e ∈ signed, ∃ signer ∈ signers, e.query = .sign signer bytes :=
  ⟨c.reference, c.message, c.bytes, hfetch.exchanges_of_ok, hsound.blockhash,
    hsound.serializes, hasked⟩

theorem Sent.ordered {r : Option (Except ClientError Submission)}
    (h : Sent ctx instructions payer others cache moments cache' r) :
    ∃ fetched signed submitted, Moment.exchanges moments = fetched ++ (signed ++ submitted) ∧
      Ordered (payer :: others) cache fetched signed submitted r := by
  cases h with
  | nothing => exact ⟨[], [], [], rfl, ⟨by simp, by simp⟩, by simp, .inl ⟨rfl, nofun⟩⟩
  | @unfetched _ _ _ stop _ hfetch =>
    exact ⟨_, [], [], by simp, ⟨hfetch.queries, hfetch.length_le⟩, by simp,
      .inl ⟨rfl, stop_ne_ok stop⟩⟩
  | uncompiled _ hfetch error =>
    exact ⟨_, [], [], by simp, ⟨hfetch.queries, hfetch.length_le⟩, by simp, .inl ⟨rfl, nofun⟩⟩
  | @unsigned _ fetched signed _ c stop _ hfetch hsound hasked =>
    exact ⟨_, Moment.exchanges signed, [], by simp, ⟨hfetch.queries, hfetch.length_le⟩,
      fun _ ↦ signs_of_sound hfetch hsound hasked, .inl ⟨rfl, stop_ne_ok stop⟩⟩
  | @submitted _ fetched signed _ c wire _ hfetch hsound hasked hsucceeds _ answer =>
    refine ⟨_, Moment.exchanges signed, [⟨.submit wire c.reference.lastValidHeight, answer⟩],
      by simp, ⟨hfetch.queries, hfetch.length_le⟩,
      fun _ ↦ signs_of_sound hfetch hsound fun e he ↦ ?_,
      .inr ⟨c.bytes, wire, _, answer, rfl, rfl, hasked, hsucceeds⟩⟩
    obtain ⟨signer, hsigner, hquery⟩ := List.mem_map.1 (hasked.subset (List.mem_map_of_mem he))
    exact ⟨signer, hsigner, hquery.symm⟩

theorem Sent.query_cases {r : Option (Except ClientError Submission)} {e : Exchange}
    (h : Sent ctx instructions payer others cache moments cache' r)
    (hmem : e ∈ Moment.exchanges moments) :
    e.query = .blockReference ∨ ∃ c : Compiled, c.Sound (ctx.budget ++ instructions) payer.address ∧
      ((∃ signer ∈ payer :: others, e.query = .sign signer c.bytes) ∨
        ∃ wire, c.wire = .ok wire ∧ e.query = .submit wire c.reference.lastValidHeight) := by
  cases h with
  | nothing => exact absurd hmem (by simp)
  | unfetched _ hfetch | uncompiled _ hfetch => exact .inl (hfetch.queries e hmem)
  | @unsigned _ _ _ _ c _ _ hfetch hsound hasked =>
    rw [Moment.exchanges_append] at hmem
    rcases List.mem_append.1 hmem with hmem | hmem
    · exact .inl (hfetch.queries e hmem)
    · exact .inr ⟨c, hsound, .inl (hasked e hmem)⟩
  | @submitted _ _ _ _ c wire _ hfetch hsound hasked _ hwire =>
    rw [Moment.exchanges_append, Moment.exchanges_append] at hmem
    rcases List.mem_append.1 hmem with hmem | hmem
    · exact .inl (hfetch.queries e hmem)
    rcases List.mem_append.1 hmem with hmem | hmem
    · obtain ⟨signer, hsigner, hquery⟩ := List.mem_map.1 (hasked.subset (List.mem_map_of_mem hmem))
      exact .inr ⟨c, hsound, .inl ⟨signer, hsigner, hquery.symm⟩⟩
    · cases List.mem_singleton.1 hmem
      exact .inr ⟨c, hsound, .inr ⟨wire, hwire, rfl⟩⟩

theorem Sent.sound {r : Option (Except ClientError Submission)} {wire : Bytes}
    {lastValidHeight : UInt64} {answer : Option (Except RpcError Submission)}
    (h : Sent ctx instructions payer others cache moments cache' r)
    (hmem : ⟨.submit wire lastValidHeight, answer⟩ ∈ Moment.exchanges moments) :
    ∃ c : Compiled, c.Sound (ctx.budget ++ instructions) payer.address ∧ c.wire = .ok wire := by
  rcases h.query_cases hmem with
    hquery | ⟨c, hsound, ⟨_, -, hquery⟩ | ⟨_, hwire, hquery⟩⟩ <;> cases hquery
  exact ⟨c, hsound, hwire⟩

theorem Sent.sound_of_sign {r : Option (Except ClientError Submission)} {signer : Signer}
    {bytes : Bytes} {answer : Option (Except ClientError Signature)}
    (h : Sent ctx instructions payer others cache moments cache' r)
    (hmem : ⟨.sign signer bytes, answer⟩ ∈ Moment.exchanges moments) :
    signer ∈ payer :: others ∧
      ∃ c : Compiled, c.Sound (ctx.budget ++ instructions) payer.address ∧ c.bytes = bytes := by
  rcases h.query_cases hmem with
    hquery | ⟨c, hsound, ⟨_, hsigner, hquery⟩ | ⟨_, -, hquery⟩⟩ <;> cases hquery
  exact ⟨hsigner, c, hsound, rfl⟩

theorem Sent.error {e : ClientError}
    (h : Sent ctx instructions payer others cache moments cache' (some (.error e))) :
    (∃ fault, e = .invalidState fault) ∨ (∃ error, e = .ledger error) ∨ (∃ error, e = .rpc error) ∨
      ∃ (c : Compiled) (signed : List Exchange),
        c.Sound (ctx.budget ++ instructions) payer.address ∧
        signed ⊆ Moment.exchanges moments ∧ c.Unsigned (payer :: others) signed e := by
  generalize hr : some (Except.error e) = r at h
  cases h with
  | nothing =>
    cases hr
    exact .inl ⟨_, rfl⟩
  | @unfetched _ _ _ stop _ hfetch =>
    have hsome : stop = some e := stop_injective hr.symm
    subst hsome
    exact .inr (.inr (.inl hfetch.of_error.1))
  | uncompiled _ _ error =>
    cases hr
    exact .inr (.inl ⟨error, rfl⟩)
  | @unsigned _ fetched signed _ c stop _ _ hsound _ _ hstop =>
    have hsome : stop = some e := stop_injective hr.symm
    refine .inr (.inr (.inr ⟨c, Moment.exchanges signed, hsound, ?_, hstop e hsome⟩))
    rw [Moment.exchanges_append]
    exact List.subset_append_right _ _
  | submitted _ _ _ _ _ _ answer =>
    rcases answer with _ | error | _
    all_goals cases hr
    exact .inr (.inr (.inl ⟨error, rfl⟩))

end ValidatorClient.Context
