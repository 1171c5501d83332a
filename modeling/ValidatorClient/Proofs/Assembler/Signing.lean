import ValidatorClient.Proofs.Assembler.Phase
import ValidatorClient.Proofs.Exchange

namespace ValidatorClient

open Ledger Attempt Process

namespace Assembler

variable {a a' : Assembler} {c c' : Compiled} {exchanges : List Exchange} {planned : List Planned}
  {r : Option (Except ClientError Unit)}

theorem insertPlanned_perm (p : Planned) (plan : List Planned) :
    (insertPlanned p plan).Perm (p :: plan) := by
  induction plan with
  | nil => exact .refl _
  | cons q plan ih =>
    rw [insertPlanned]
    by_cases h : p.isBefore q = true
    · rw [if_pos h]
    · rw [if_neg h]
      exact (ih.cons q).trans (.swap p q plan)

theorem sortPlan_perm (plan : List Planned) : (sortPlan plan).Perm plan := by
  induction plan with
  | nil => exact .refl _
  | cons p plan ih => exact (insertPlanned_perm p _).trans (ih.cons p)

theorem exists_sortPlan_of_plan {signers : List Signer} (h : plan c.slotOf signers = .ok planned) :
    ∃ found, planned = sortPlan found ∧ found.map (·.signer) = signers ∧
      ∀ p ∈ found, c.slotOf p.signer.address = .ok p.slot := by
  obtain ⟨found, hfound, hsort⟩ := Except.bind_eq_ok_iff.1 h
  have hall : List.Forall₂ (fun (signer : Signer) (p : Planned) ↦
      signer = p.signer ∧ c.slotOf p.signer.address = .ok p.slot) signers found := by
    refine (Except.mapM_eq_ok_iff.1 hfound).imp fun signer q hq ↦ ?_
    obtain ⟨slot, hslot, hq⟩ := Except.bind_eq_ok_iff.1 hq
    cases hq
    exact ⟨rfl, hslot⟩
  refine ⟨found, (Except.ok.inj hsort).symm, ?_, fun p hp ↦ ?_⟩
  · rw [← List.forall₂_eq_eq_eq, List.forall₂_map_left_iff]
    exact hall.flip.imp fun _ _ hp ↦ hp.1.symm
  · obtain ⟨i, hi, hpi⟩ := List.getElem_of_mem hp
    rw [← hpi]
    exact (hall.get (by rw [hall.length_eq]; exact hi) hi).2

theorem plan_eq_ok {signers : List Signer} {planned : List Planned}
    (h : plan c.slotOf signers = .ok planned) :
    (planned.map (·.signer)).Perm signers ∧
      ∀ p ∈ planned, c.slotOf p.signer.address = .ok p.slot := by
  obtain ⟨found, rfl, rfl, hslots⟩ := exists_sortPlan_of_plan h
  exact ⟨(sortPlan_perm found).map _, fun p hp ↦ hslots p ((sortPlan_perm found).mem_iff.1 hp)⟩

/-- A signer is left out of the plan only if there is no place for them, and then nobody is
asked. -/
theorem plan_eq_error {signers : List Signer} {e : ClientError}
    (h : plan c.slotOf signers = .error e) :
    ∃ signer ∈ signers, signer.address ∉ c.message.signerKeys ∧
      e = .unknownSigner signer.address := by
  rcases Except.bind_eq_error_iff.1 h with h | ⟨_, -, h⟩
  · obtain ⟨signer, hsigner, h⟩ := Except.exists_of_mapM_eq_error h
    rcases Except.bind_eq_error_iff.1 h with h | ⟨_, -, h⟩
    · exact ⟨signer, hsigner, Compiled.slotOf_eq_error h⟩
    · cases h
  · cases h

/-- All that can come of a plan: every signature is stored, or the first that is not ends it. -/
inductive Signs :
    List Planned → Compiled → List Exchange → Compiled → Option (Except ClientError Unit) → Prop
  | done (c : Compiled) : Signs [] c [] c (some (.ok ()))
  | givenUp (p : Planned) (rest : List Planned) (c : Compiled) :
      Signs (p :: rest) c [⟨.sign p.signer c.bytes, none⟩] c none
  | refused (p : Planned) (rest : List Planned) (c : Compiled) (e : ClientError) :
      Signs (p :: rest) c [⟨.sign p.signer c.bytes, some (Except.error e)⟩] c (some (.error e))
  | wrong {p : Planned} {c : Compiled} {signature : Signature} (rest : List Planned)
      (h : p.signer.address.verifies c.bytes signature = false) :
      Signs (p :: rest) c [⟨.sign p.signer c.bytes, some (Except.ok signature)⟩] c
        (some (.error (.signerRejected (.wrongSignature p.signer.address))))
  | stored {p : Planned} {rest : List Planned} {c c₁ c' : Compiled} {signature : Signature}
      {exchanges : List Exchange} {r : Option (Except ClientError Unit)}
      (hstore : c.store p.slot p.signer.address signature = .ok c₁)
      (h : Signs rest c₁ exchanges c' r) :
      Signs (p :: rest) c (⟨.sign p.signer c.bytes, some (Except.ok signature)⟩ :: exchanges) c' r

theorem signs_of_trace (hphase : a.IsIn (.compiled c))
    (h : (signPlanned planned a).Trace exchanges a' r) :
    ∃ c', Signs planned c exchanges c' r ∧ a' = a.enter (.compiled c') := by
  induction planned generalizing a c exchanges with
  | nil =>
    obtain ⟨he, ha, hr⟩ := trace_done_iff.1 h
    subst he hr
    exact ⟨c, .done c, ha.trans hphase.enter_eq.symm⟩
  | cons p rest ih =>
    have hstay := hphase.enter_eq.symm
    rw [signPlanned, get_bind, ofExcept_bind_of_ok _ _ hphase.messageBytes_eq, ask_bind] at h
    rcases trace_wait_iff.1 h with ⟨he, ha, hr⟩ | ⟨answer, after, he, h⟩
    · subst he hr
      exact ⟨c, .givenUp p rest c, ha.trans hstay⟩
    · cases answer with
      | error e =>
        obtain ⟨hafter, ha, hr⟩ := trace_done_iff.1 h
        subst he hafter hr
        exact ⟨c, .refused p rest c e, ha.trans hstay⟩
      | ok signature =>
        dsimp only at h
        rw [get_bind] at h
        cases hstore : c.store p.slot p.signer.address signature with
        | error e =>
          obtain ⟨hwrong, heq⟩ := Compiled.store_eq_error hstore
          rw [ofExcept_bind_of_error _ _ (hphase.storeSignature_of_error hstore), heq] at h
          obtain ⟨hafter, ha, hr⟩ := trace_done_iff.1 h
          subst he hafter hr
          exact ⟨c, .wrong rest hwrong, ha.trans hstay⟩
        | ok c₁ =>
          rw [ofExcept_bind_of_ok _ _ (hphase.storeSignature_of_store hstore), set_bind] at h
          obtain ⟨c', hsigns, ha⟩ := ih (isIn_enter a (.compiled c₁)) h
          subst he
          exact ⟨c', .stored hstore hsigns, ha⟩

theorem Signs.trace (h : Signs planned c exchanges c' r) (hphase : a.IsIn (.compiled c)) :
    (signPlanned planned a).Trace exchanges (a.enter (.compiled c')) r := by
  induction h generalizing a with
  | done c =>
    rw [hphase.enter_eq]
    exact .done a _
  | givenUp p rest c =>
    rw [signPlanned, get_bind, ofExcept_bind_of_ok _ _ hphase.messageBytes_eq, ask_bind,
      hphase.enter_eq]
    exact .givenUp a _ _
  | refused p rest c e =>
    rw [signPlanned, get_bind, ofExcept_bind_of_ok _ _ hphase.messageBytes_eq, ask_bind,
      hphase.enter_eq]
    exact trace_wait_iff.2 (.inr ⟨Except.error e, [], rfl, .done a _⟩)
  | @wrong p c signature rest hwrong =>
    have hstore : c.store p.slot p.signer.address signature =
        .error (.signerRejected (.wrongSignature p.signer.address)) := by
      rw [Compiled.store, if_neg (by simp [hwrong])]
    rw [signPlanned, get_bind, ofExcept_bind_of_ok _ _ hphase.messageBytes_eq, ask_bind,
      hphase.enter_eq]
    refine trace_wait_iff.2 (.inr ⟨Except.ok signature, [], rfl, ?_⟩)
    dsimp only
    rw [get_bind, ofExcept_bind_of_error _ _ (hphase.storeSignature_of_error hstore)]
    exact .done a _
  | @stored p rest c c₁ c' signature exchanges r hstore h ih =>
    rw [signPlanned, get_bind, ofExcept_bind_of_ok _ _ hphase.messageBytes_eq, ask_bind]
    refine trace_wait_iff.2 (.inr ⟨Except.ok signature, exchanges, rfl, ?_⟩)
    dsimp only
    rw [get_bind, ofExcept_bind_of_ok _ _ (hphase.storeSignature_of_store hstore), set_bind]
    exact ih (isIn_enter a (.compiled c₁))

namespace Signs

theorem fills (h : Signs planned c exchanges c' r)
    (hplanned : ∀ p ∈ planned, c.slotOf p.signer.address = .ok p.slot) : c.Fills c' := by
  induction h with
  | done c | givenUp _ _ c | refused _ _ c _ => exact .refl c
  | wrong => exact .refl _
  | @stored p rest c _ _ _ _ _ hstore _ ih =>
    refine .store (hplanned p List.mem_cons_self) hstore (ih fun q hq ↦ ?_)
    rw [Compiled.slotOf_of_store hstore]
    exact hplanned q (List.mem_cons_of_mem p hq)

theorem prompt (h : Signs planned c exchanges c' r) : Prompt exchanges r := by
  induction h with
  | done => exact .nil _
  | givenUp => exact .one_givenUp _
  | refused _ _ _ e => exact .one_failed (.sign e)
  | @wrong _ _ signature => exact .done (by simpa using .sign signature) _
  | @stored p _ c _ _ signature _ _ _ _ ih =>
    have hfirst :
        ∀ e ∈ [(⟨.sign p.signer c.bytes, some (Except.ok signature)⟩ : Exchange)], e.Succeeds := by
      simpa using .sign signature
    exact ih.append hfirst

theorem asked (h : Signs planned c exchanges c' r) :
    exchanges.map (·.query) <+: planned.map (fun p ↦ .sign p.signer c.bytes) ∧
      (r = some (.ok ()) → exchanges.map (·.query) = planned.map fun p ↦
        .sign p.signer c.bytes) := by
  induction h with
  | done => simp
  | givenUp | refused | wrong => simp
  | stored hstore _ ih =>
    rw [Compiled.bytes_of_store hstore] at ih
    simpa using ih

theorem query_of_mem {signers : List Signer} (h : Signs planned c exchanges c' r)
    (hsigners : (planned.map (·.signer)).Perm signers) :
    ∀ e ∈ exchanges, ∃ signer ∈ signers, e.query = .sign signer c.bytes := by
  intro e he
  obtain ⟨p, hp, hquery⟩ := List.mem_map.1 (h.asked.1.subset (List.mem_map_of_mem he))
  exact ⟨p.signer, hsigners.mem_iff.1 (List.mem_map_of_mem hp), hquery.symm⟩

theorem perm_of_ok {signers : List Signer} (h : Signs planned c exchanges c' (some (.ok ())))
    (hsigners : (planned.map (·.signer)).Perm signers) :
    (exchanges.map (·.query)).Perm (signers.map fun signer ↦ .sign signer c.bytes) := by
  have hperm := hsigners.map fun signer ↦ Query.sign signer c.bytes
  rwa [List.map_map, Function.comp_def, ← h.asked.2 rfl] at hperm

theorem error {e : ClientError} (h : Signs planned c exchanges c' (some (.error e))) :
    ∃ p ∈ planned, ⟨.sign p.signer c.bytes, some (Except.error e)⟩ ∈ exchanges ∨
      ∃ signature : Signature, ⟨.sign p.signer c.bytes, some (Except.ok signature)⟩ ∈ exchanges ∧
        p.signer.address.verifies c.bytes signature = false ∧
        e = .signerRejected (.wrongSignature p.signer.address) := by
  generalize hr : some (Except.error e) = r at h
  induction h with
  | done | givenUp => cases hr
  | refused p =>
    cases hr
    exact ⟨p, List.mem_cons_self, .inl (List.mem_singleton_self _)⟩
  | @wrong p _ signature _ hwrong =>
    cases hr
    exact ⟨p, List.mem_cons_self, .inr ⟨signature, List.mem_singleton_self _, hwrong, rfl⟩⟩
  | stored hstore _ ih =>
    obtain ⟨p, hp, hwhy⟩ := ih hr
    rw [Compiled.bytes_of_store hstore] at hwhy
    refine ⟨p, List.mem_cons_of_mem _ hp, ?_⟩
    rcases hwhy with hrefused | ⟨signature, hmem, hwrong⟩
    · exact .inl (List.mem_cons_of_mem _ hrefused)
    · exact .inr ⟨signature, List.mem_cons_of_mem _ hmem, hwrong⟩

theorem filled (h : Signs planned c exchanges c' (some (.ok ()))) {i : Nat}
    {slot : Option Signature} (hslot : c'.slots[i]? = some slot) :
    slot.isSome = true ∨ c.slots[i]? = some slot ∧ ∀ p ∈ planned, p.slot ≠ i := by
  generalize hr : some (Except.ok ()) = r at h
  induction h with
  | givenUp | refused | wrong => cases hr
  | done => exact .inr ⟨hslot, nofun⟩
  | @stored p _ _ _ _ signature _ _ hstore _ ih =>
    rcases ih hslot hr with hsome | ⟨hslot', hne⟩
    · exact .inl hsome
    rw [(Compiled.store_eq_ok_iff.1 hstore).2] at hslot'
    by_cases hp : p.slot = i
    · subst hp
      rw [List.getElem?_set_self (by simpa using (List.getElem?_eq_some_iff.1 hslot').1)] at hslot'
      cases hslot'
      exact .inl rfl
    · rw [List.getElem?_set_ne hp] at hslot'
      exact .inr ⟨hslot', List.forall_mem_cons.2 ⟨hp, hne⟩⟩

end Signs

theorem sign_of_plan {signers : List Signer} (hphase : a.IsIn (.compiled c))
    (hplan : plan c.slotOf signers = .ok planned) : sign signers a = signPlanned planned a := by
  rw [sign, get_bind, ofExcept_bind_of_ok _ _ (expectStage_of_mem hphase.stage_mem),
    hphase.slotOf_eq, ofExcept_bind_of_ok _ _ hplan]

theorem sign_of_plan_error {signers : List Signer} {e : ClientError} (hphase : a.IsIn (.compiled c))
    (hplan : plan c.slotOf signers = .error e) : sign signers a = .done a (.error e) := by
  rw [sign, get_bind, ofExcept_bind_of_ok _ _ (expectStage_of_mem hphase.stage_mem),
    hphase.slotOf_eq, ofExcept_bind_of_error _ _ hplan]

theorem trace_sign_of_compiled {signers : List Signer} (hphase : a.IsIn (.compiled c))
    (h : (sign signers a).Trace exchanges a' r) :
    (∃ signer ∈ signers, signer.address ∉ c.message.signerKeys ∧ exchanges = [] ∧ a' = a ∧
        r = some (.error (.unknownSigner signer.address))) ∨
      ∃ planned c', (planned.map (·.signer)).Perm signers ∧
        (∀ p ∈ planned, c.slotOf p.signer.address = .ok p.slot) ∧ Signs planned c exchanges c' r ∧
        a' = a.enter (.compiled c') := by
  cases hplan : plan c.slotOf signers with
  | error e =>
    obtain ⟨signer, hsigner, hkey, heq⟩ := plan_eq_error hplan
    rw [sign_of_plan_error hphase hplan, heq] at h
    obtain ⟨he, ha, hr⟩ := trace_done_iff.1 h
    exact .inl ⟨signer, hsigner, hkey, he, ha, hr⟩
  | ok planned =>
    rw [sign_of_plan hphase hplan] at h
    obtain ⟨hsigners, hslots⟩ := plan_eq_ok hplan
    obtain ⟨c', hsigns, ha⟩ := signs_of_trace hphase h
    exact .inr ⟨planned, c', hsigners, hslots, hsigns, ha⟩

theorem trace_sign_of_signs {signers : List Signer} (hphase : a.IsIn (.compiled c))
    (hplan : plan c.slotOf signers = .ok planned) (h : Signs planned c exchanges c' r) :
    (sign signers a).Trace exchanges (a.enter (.compiled c')) r := by
  rw [sign_of_plan hphase hplan]
  exact h.trace hphase

end Assembler

end ValidatorClient
