import ValidatorClient.Proofs.Context

namespace ValidatorClient.Context

open Ledger Attempt Process

variable {ctx : Context} {instructions : List Ledger.Instruction} {payer : Signer}
  {others : List Signer} {cache cache₁ cache' : BlockhashCache} {now : Nat}
  {fetched moments : List Moment} {result : Except ClientError Submission}

structure Used (instructions : List Ledger.Instruction) (feePayer : Address)
    (reference : BlockReference) (exchanges : List Exchange) : Prop where
  signs : ∀ e ∈ exchanges, ∀ signer bytes, e.query = .sign signer bytes →
    ∃ m, Message.compile instructions feePayer reference.blockhash = .ok m ∧ m.serialize = .ok bytes
  submits : ∀ e ∈ exchanges, ∀ wire lastValidHeight, e.query = .submit wire lastValidHeight →
    lastValidHeight = reference.lastValidHeight ∧
    ∃ m bytes signatures, Message.compile instructions feePayer reference.blockhash = .ok m ∧
      m.serialize = .ok bytes ∧ Wire.split wire = .ok (signatures, bytes)

/-- The cache after sending where the clock showed this time first. It is empty after an error of
the node, and after anything else it holds the reference that was used. -/
structure Settles (ctx : Context) (instructions : List Ledger.Instruction) (feePayer : Address)
    (cache : BlockhashCache) (now : Nat) (exchanges : List Exchange) (cache' : BlockhashCache)
    (result : Except ClientError Submission) : Prop where
  asks : (∃ e ∈ exchanges, e.query = .blockReference) ↔ cache.live? now = none
  empties : ∀ e, result = .error (.rpc e) → cache'.peek = none ∧ ∀ later, cache'.live? later = none
  keeps : (∀ e, result ≠ .error (.rpc e)) → ∃ reference, cache'.peek = some reference ∧
    (cache.live? now = some reference ∧ cache' = cache ∨
      ⟨.blockReference, some (Except.ok reference)⟩ ∈ exchanges) ∧
    Used (ctx.budget ++ instructions) feePayer reference exchanges

def afterResult (cache : BlockhashCache) : Except ClientError Submission → BlockhashCache
  | .ok _ => cache
  | .error e => afterError cache e

theorem afterResult_of_ne (h : ∀ e, result ≠ .error (.rpc e)) :
    afterResult cache result = cache := by
  cases result with
  | ok _ => rfl
  | error e =>
    cases e with
    | rpc e => exact absurd rfl (h e)
    | _ => rfl

theorem Used.of_ne {instructions : List Ledger.Instruction} {feePayer : Address}
    {reference : BlockReference} {exchanges : List Exchange}
    (h : ∀ e ∈ exchanges, e.query = .blockReference) :
    Used instructions feePayer reference exchanges where
  signs e he _ _ hquery := by
    rw [h e he] at hquery
    cases hquery
  submits e he _ _ hquery := by
    rw [h e he] at hquery
    cases hquery

theorem Used.append {instructions : List Ledger.Instruction} {feePayer : Address}
    {reference : BlockReference} {first rest : List Exchange}
    (hfirst : Used instructions feePayer reference first)
    (hrest : Used instructions feePayer reference rest) :
    Used instructions feePayer reference (first ++ rest) where
  signs e he := (List.mem_append.1 he).elim (hfirst.signs e) (hrest.signs e)
  submits e he := (List.mem_append.1 he).elim (hfirst.submits e) (hrest.submits e)

theorem Used.signed {c : Compiled} {feePayer : Address} {signers : List Signer}
    {exchanges : List Exchange} (hsound : c.Sound instructions feePayer)
    (hasked : ∀ e ∈ exchanges, ∃ signer ∈ signers, e.query = .sign signer c.bytes) :
    Used instructions feePayer c.reference exchanges where
  signs e he signer bytes hquery := by
    obtain ⟨_, -, hsign⟩ := hasked e he
    cases hsign.symm.trans hquery
    exact ⟨c.message, hsound.compiles, hsound.serializes⟩
  submits e he _ _ hquery := by
    obtain ⟨_, -, hsign⟩ := hasked e he
    cases hsign.symm.trans hquery

theorem Used.submitted {c : Compiled} {feePayer : Address} {wire : Bytes}
    (hsound : c.Sound instructions feePayer) (hwire : c.wire = .ok wire)
    (answer : Option (Except RpcError Submission)) :
    Used instructions feePayer c.reference
      [⟨.submit wire c.reference.lastValidHeight, answer⟩] where
  signs e he _ _ hquery := by
    rw [List.mem_singleton.1 he] at hquery
    cases hquery
  submits e he _ _ hquery := by
    rw [List.mem_singleton.1 he] at hquery
    cases hquery
    obtain ⟨signatures, hsplit, -⟩ := hsound.wire hwire
    exact ⟨rfl, c.message, c.bytes, signatures, hsound.compiles, hsound.serializes, hsplit⟩

theorem settles_of_fetched {feePayer : Address} {reference : BlockReference} (rest : List Moment)
    (hfetch : cache.Fetches now fetched cache₁ (some (.ok reference)))
    (hrest : ∀ e ∈ Moment.exchanges rest, e.query ≠ .blockReference)
    (hused : Used (ctx.budget ++ instructions) feePayer reference (Moment.exchanges rest)) :
    Settles ctx instructions feePayer cache now (Moment.exchanges (fetched ++ rest))
      (afterResult cache₁ result) result where
  asks := by
    rw [← hfetch.asks_iff, Moment.exchanges_append]
    constructor
    · intro h
      obtain ⟨e, he, hquery⟩ := h
      rcases List.mem_append.1 he with he | he
      · exact ⟨e, he, hquery⟩
      · exact absurd hquery (hrest e he)
    · intro h
      obtain ⟨e, he, hquery⟩ := h
      exact ⟨e, List.mem_append_left _ he, hquery⟩
  empties e hresult := by
    rw [hresult]
    exact ⟨rfl, fun _ ↦ rfl⟩
  keeps hresult := by
    obtain ⟨hpeek, hsource⟩ := hfetch.of_ok
    rw [afterResult_of_ne hresult, Moment.exchanges_append]
    exact ⟨reference, hpeek, hsource.imp_right (List.mem_append_left _),
      .append (.of_ne hfetch.queries) hused⟩

/-- Of all the ways in which sending can end after it asked for a reference, only those with an
error of the node empty the cache. -/
theorem Sent.settles (h : Sent ctx instructions payer others cache moments cache' (some result))
    (hopen : ctx.budget ++ instructions ≠ [])
    (hsigners : ∀ signer bytes e,
      ⟨.sign signer bytes, some (Except.error (.rpc e))⟩ ∉ Moment.exchanges moments) :
    ∃ now rest, moments = .clock now :: rest ∧
      Settles ctx instructions payer.address cache now (Moment.exchanges moments)
        cache' result := by
  generalize hr : some result = r at h
  cases h with
  | nothing hempty => exact absurd hempty hopen
  | @unfetched now _ _ stop _ hfetch =>
    cases stop with
    | none => cases hr
    | some e =>
      cases hr
      obtain ⟨⟨error, he⟩, hcache⟩ := hfetch.of_error
      obtain ⟨rest, hrest⟩ := hfetch.exists_cons
      rw [hcache]
      refine ⟨now, rest, hrest, hfetch.asks_iff, fun _ _ ↦ ⟨rfl, fun _ ↦ rfl⟩, fun hne ↦ ?_⟩
      exact absurd (congrArg _ he) (hne error)
  | @uncompiled now _ _ reference _ hfetch error =>
    cases hr
    obtain ⟨rest, hrest⟩ := hfetch.exists_cons
    have hsettles :
        Settles ctx instructions payer.address cache now (Moment.exchanges (moments ++ []))
          (afterResult cache' (.error (.ledger error))) (.error (.ledger error)) :=
      settles_of_fetched [] hfetch (by simp) (.of_ne (by simp))
    rw [List.append_nil] at hsettles
    exact ⟨now, rest, hrest, hsettles⟩
  | @unsigned now fetched signed _ c stop _ hfetch hsound hasked _ hstop =>
    cases stop with
    | none => cases hr
    | some e =>
      cases hr
      obtain ⟨rest, hrest⟩ := hfetch.exists_cons
      have hlocal (error : RpcError) (he : e = .rpc error) : False := by
        subst he
        cases hstop _ rfl with
        | refused h => exact hsigners _ _ _ (by simpa using .inr h)
      have hkept : afterResult cache' (.error e) = cache' :=
        afterResult_of_ne fun error he ↦ hlocal error (by injection he)
      refine ⟨now, rest ++ signed, by rw [hrest, List.cons_append], ?_⟩
      rw [← hkept]
      refine settles_of_fetched _ hfetch (fun e he hquery ↦ ?_) (.signed hsound hasked)
      obtain ⟨_, -, hsign⟩ := hasked e he
      cases hsign.symm.trans hquery
  | @submitted now fetched signed cache₁ c wire _ hfetch hsound hasked _ hwire answer =>
    cases answer with
    | none => cases hr
    | some answer =>
      cases hr
      obtain ⟨rest, hrest⟩ := hfetch.exists_cons
      have hsigned : ∀ e ∈ Moment.exchanges signed, ∃ signer ∈ payer :: others,
          e.query = .sign signer c.bytes := by
        intro e he
        obtain ⟨signer, hsigner, hquery⟩ := List.mem_map.1 (hasked.subset (List.mem_map_of_mem he))
        exact ⟨signer, hsigner, hquery.symm⟩
      have hafter :
          afterAnswer cache₁ (some answer) = afterResult cache₁ (answer.mapError .rpc) := by
        cases answer <;> rfl
      refine ⟨now, _, by rw [hrest, List.cons_append], ?_⟩
      rw [hafter]
      refine settles_of_fetched _ hfetch (fun e he hquery ↦ ?_) ?_
      · simp only [Moment.exchanges_append, List.mem_append] at he
        rcases he with he | he
        · obtain ⟨_, -, hsign⟩ := hsigned e he
          cases hsign.symm.trans hquery
        · cases List.mem_singleton.1 he
          cases hquery
      · rw [Moment.exchanges_append]
        exact .append (.signed hsound hsigned) (.submitted hsound hwire (some answer))

/-- Sending that has nobody to pay or nothing to send does not touch the cache. Where it goes on,
the cache decides whether the node is asked for a reference, and is empty afterwards only if the
node was the trouble. -/
theorem send_settles {signers : List Signer}
    (h : (ctx.send instructions signers cache).Timed moments cache' (some result))
    (hsigners : ∀ signer bytes e,
      ⟨.sign signer bytes, some (Except.error (.rpc e))⟩ ∉ Moment.exchanges moments) :
    (signers = [] → moments = [] ∧ cache' = cache ∧
      result = .error (.invalidArgument .noFeePayer)) ∧
    ∀ payer others, signers = payer :: others →
      (ctx.budget ++ instructions = [] →
        moments = [] ∧ cache' = cache ∧ result = .error (.invalidState .noInstructions)) ∧
      (ctx.budget ++ instructions ≠ [] → ∃ now rest, moments = .clock now :: rest ∧
        Settles ctx instructions payer.address cache now (Moment.exchanges moments)
          cache' result) := by
  constructor
  · intro hnone
    subst hnone
    obtain ⟨hm, hcache, hr⟩ := timed_done_iff.1 h
    exact ⟨hm, hcache, Option.some.inj hr⟩
  · intro payer others hcons
    subst hcons
    have hsent := sent_of_timed h
    refine ⟨fun hempty ↦ ?_, fun hopen ↦ hsent.settles hopen hsigners⟩
    generalize hr : some result = r at hsent
    cases hsent with
    | nothing => exact ⟨rfl, rfl, Option.some.inj hr⟩
    | unfetched hopen | uncompiled hopen | unsigned hopen | submitted hopen =>
      exact absurd hempty hopen

def unwilling : (query : Query) → StateM Unit (Nat × query.Answer)
  | .blockReference => return (0, Except.error (.transport "offline"))
  | .submit _ _ => return (0, Except.error (.transport "offline"))
  | .account _ => return (0, Except.error (.transport "offline"))
  | .sign _ _ => return (0, Except.error (.signerRejected .device))
  | .deviceAddress _ _ => return (0, none)

theorem send_settles_refused :
    let payer : Signer := ⟨0, ⟨.replicate 32 1⟩, .hardware⟩
    let ctx : Context := ⟨⟨.replicate 32 9⟩, none, none, none⟩
    let instruction : Ledger.Instruction := ⟨⟨.replicate 32 2⟩, [], [7]⟩
    let cache : BlockhashCache := ⟨60000, some ⟨⟨.replicate 32 3, 42⟩, 3⟩⟩
    let result : Except ClientError Submission := .error (.signerRejected .device)
    ∃ moments now, (ctx.send [instruction] [payer] cache).Timed moments cache (some result) ∧
      Settles ctx [instruction] payer.address cache now (Moment.exchanges moments)
          cache result := by
  intro payer ctx instruction cache result
  obtain ⟨moments, h, hanswers⟩ :=
    exists_timed_of_run unwilling none (ctx.send [instruction] [payer] cache) 5 ()
  have hrun : (((ctx.send [instruction] [payer] cache).run unwilling none 5).run ()).1.2 =
      (cache, some result) := by
    decide +kernel
  rw [hrun] at h
  have hsigners (signer : Signer) (bytes : Bytes) (e : RpcError) :
      ⟨.sign signer bytes, some (Except.error (.rpc e))⟩ ∉ Moment.exchanges moments := by
    intro hmem
    obtain ⟨_, hanswer⟩ := hanswers _ hmem _ rfl
    cases hanswer
  obtain ⟨now, rest, -, hsettles⟩ :=
    ((send_settles h hsigners).2 payer [] rfl).2 (List.cons_ne_nil instruction [])
  exact ⟨moments, now, h, hsettles⟩

end ValidatorClient.Context
