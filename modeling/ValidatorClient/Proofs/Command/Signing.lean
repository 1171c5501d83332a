import ValidatorClient.Proofs.Command.Run

namespace ValidatorClient.Command

open Ledger Attempt Process

variable {ctx : Context} {payer : Signer} {command : Command} {cache cache' : BlockhashCache}
  {exchanges : List Exchange} {r : Option (Except ClientError Submission)} {m : Message}

/-- The command can become this message: the accounts that it lists and what it tells the program,
after what is asked of the compute budget. -/
def Compiles (ctx : Context) (payer : Signer) (command : Command) (m : Message) : Prop :=
  ∃ (cache : BlockhashCache) (reads : List Exchange) (prepared : Prepared) (data : Bytes)
    (blockhash : Blockhash),
    (command.prepare ctx payer.address cache).Trace reads cache (some (.ok prepared)) ∧
    Program.Instruction.layout.encode prepared.instruction = .ok data ∧
    Message.compile (ctx.budget ++ [⟨ctx.program, prepared.accounts, data⟩]) payer.address
      blockhash = .ok m

theorem accounts_of_mem_budget {i : Ledger.Instruction} (h : i ∈ ctx.budget) : i.accounts = [] := by
  simp only [Context.budget, List.mem_append, Option.mem_toList, Option.map_eq_some_iff] at h
  rcases h with (⟨_, -, hi⟩ | ⟨_, -, hi⟩) | ⟨_, -, hi⟩
  all_goals
    rw [← hi]
    rfl

theorem grants_iff_of_signedBy {prepared : Prepared} {data : Bytes} {key : Address}
    (h : SignedBy ((command.signers payer).map (·.address)) prepared.accounts) :
    Message.Grants (·.isSigner) (ctx.budget ++ [⟨ctx.program, prepared.accounts, data⟩])
      payer.address key ↔
      key ∈ (command.signers payer).map (·.address) := by
  rw [← h key, Message.Grants]
  constructor
  · intro hgrants
    rcases hgrants with hpayer | ⟨i, hi, a, ha, haddress, hsigns⟩
    · rw [h key, signers_eq, hpayer]
      exact List.mem_cons_self
    rcases List.mem_append.1 hi with hi | hi
    · rw [accounts_of_mem_budget hi] at ha
      cases ha
    · cases List.mem_singleton.1 hi
      exact ⟨a, ha, hsigns, haddress⟩
  · intro hmem
    obtain ⟨a, ha, hsigns, haddress⟩ := hmem
    exact .inr ⟨_, List.mem_append_right _ (List.mem_singleton_self _), a, ha, haddress, hsigns⟩

/-- The payer comes first, and an address that signs twice is wanted once. -/
theorem Compiles.signerKeys_eq (h : command.Compiles ctx payer m) :
    m.signerKeys = ((command.signers payer).map (·.address)).eraseDups := by
  obtain ⟨cache, reads, prepared, data, blockhash, hprepare, -, hcompile⟩ := h
  obtain ⟨-, -, -, -, hpost⟩ := reads_prepare command _ _ _ hprepare
  have hlength : (command.others.map (·.address)).length ≤ 1 := by
    rw [List.length_map]
    cases command with
    | mintGem => exact Nat.le_refl 1
    | _ => exact Nat.zero_le 1
  rw [signers_eq, List.map_cons]
  refine Message.signerKeys_eq hcompile hlength fun key ↦ ?_
  rw [grants_iff_of_signedBy (hpost _ rfl).2, signers_eq, List.map_cons]

theorem Compiles.mem_signerKeys_iff (h : command.Compiles ctx payer m) {key : Address} :
    key ∈ m.signerKeys ↔ key ∈ (command.signers payer).map (·.address) := by
  rw [h.signerKeys_eq, List.mem_eraseDups]

inductive Mismatch : ClientError → Prop
  | unknownSigner (address : Address) : Mismatch (.unknownSigner address)
  | incompleteSignatures (missing required : Nat) :
      Mismatch (.incompleteSignatures missing required)

theorem Compiles.exists_of_unsigned {c : Compiled} {signed : List Exchange} {e : ClientError}
    (h : command.Compiles ctx payer c.message)
    (hunsigned : c.Unsigned (command.signers payer) signed e) (he : Mismatch e) :
    ∃ signer, ⟨.sign signer c.bytes, some (Except.error e)⟩ ∈ signed := by
  cases hunsigned with
  | unknownSigner hsigner hkey =>
    exact absurd (h.mem_signerKeys_iff.2 (List.mem_map_of_mem hsigner)) hkey
  | refused hrefused => exact ⟨_, hrefused⟩
  | incomplete hkey hmissing => exact absurd (h.mem_signerKeys_iff.1 hkey) hmissing
  | wrongSignature | unwritable => cases he

theorem exists_sign_of_mismatch {e : ClientError}
    (h : (command.run ctx payer cache).Trace exchanges cache' (some (.error e))) (he : Mismatch e) :
    ∃ signer bytes, ⟨.sign signer bytes, some (Except.error e)⟩ ∈ exchanges := by
  rcases trace_run h with
    ⟨-, -, -, hprepare⟩ | ⟨reads, sent, prepared, data, hparts, -, -, hprepare, -, hdata, hsent⟩
  · cases hprepare e rfl with
    | invalidArgument | notFound | accountData | ledger | rpc | codec => cases he
  · rcases hsent.error with ⟨_, heq⟩ | ⟨_, heq⟩ | ⟨_, heq⟩ | ⟨c, signed, hsound, hsub, hunsigned⟩
    · cases heq ▸ he
    · cases heq ▸ he
    · cases heq ▸ he
    · rw [← signers_eq] at hunsigned
      have hcompiles : command.Compiles ctx payer c.message :=
        ⟨cache, reads, prepared, data, _, hprepare, hdata, hsound.compiles⟩
      obtain ⟨signer, hrefused⟩ := hcompiles.exists_of_unsigned hunsigned he
      rw [hparts]
      exact ⟨signer, c.bytes, List.mem_append_right _ (hsub hrefused)⟩

theorem compiles_of_sign {signer : Signer} {bytes : Bytes}
    {answer : Option (Except ClientError Signature)}
    (h : (command.run ctx payer cache).Trace exchanges cache' r)
    (hmem : ⟨.sign signer bytes, answer⟩ ∈ exchanges) :
    signer ∈ command.signers payer ∧ ∃ m, command.Compiles ctx payer m ∧
      m.serialize = .ok bytes := by
  rcases trace_run h with
    ⟨-, hasked, -⟩ | ⟨reads, sent, prepared, data, hparts, -, hasked, hprepare, -, hdata, hsent⟩
  · obtain ⟨_, hquery⟩ := hasked _ hmem
    cases hquery
  rw [hparts] at hmem
  rcases List.mem_append.1 hmem with hmem | hmem
  · obtain ⟨_, hquery⟩ := hasked _ hmem
    cases hquery
  · obtain ⟨hsigner, c, hsound, hbytes⟩ := hsent.sound_of_sign hmem
    rw [signers_eq, ← hbytes]
    exact ⟨hsigner, c.message, ⟨cache, reads, prepared, data, _, hprepare, hdata, hsound.compiles⟩,
      hsound.serializes⟩

/-- The message of a command wants the signatures of its signers, the payer first and each address
once, and they are asked to sign just that message. When their signatures verify, nobody is unknown
and nothing is missing. -/
theorem run_signers (h : (command.run ctx payer cache).Trace exchanges cache' r) :
    (∀ m, command.Compiles ctx payer m →
      m.signerKeys = ((command.signers payer).map (·.address)).eraseDups) ∧
    (∀ signer bytes answer, ⟨.sign signer bytes, answer⟩ ∈ exchanges →
      signer ∈ command.signers payer ∧ ∃ m, command.Compiles ctx payer m ∧
        m.serialize = .ok bytes) ∧
    ((∀ signer bytes (answer : Except ClientError Signature),
        ⟨.sign signer bytes, some answer⟩ ∈ exchanges →
        ∃ signature, answer = .ok signature ∧ signer.address.verifies bytes signature = true) →
      (∀ address, r ≠ some (.error (.unknownSigner address))) ∧
      ∀ missing required, r ≠ some (.error (.incompleteSignatures missing required))) := by
  refine ⟨fun m hm ↦ hm.signerKeys_eq, fun signer bytes answer ↦ compiles_of_sign h,
    fun hverify ↦ ?_⟩
  have hnot (e : ClientError) (he : Mismatch e) : r ≠ some (.error e) := by
    intro hr
    rw [hr] at h
    obtain ⟨signer, bytes, hrefused⟩ := exists_sign_of_mismatch h he
    obtain ⟨_, hanswer, -⟩ := hverify signer bytes _ hrefused
    cases hanswer
  exact ⟨fun address ↦ hnot _ (.unknownSigner address),
    fun missing required ↦ hnot _ (.incompleteSignatures missing required)⟩

def scrupulous (signature : Signature) : (query : Query) → StateM Unit (Nat × query.Answer)
  | .sign signer bytes =>
    return (0, if signer.address.verifies bytes signature then .ok signature
      else .error (.signerRejected .device))
  | query => obliging signature query

theorem verifies_of_scrupulous {signature given : Signature} {signer : Signer} {bytes : Bytes}
    (h : Answers (scrupulous signature) ⟨.sign signer bytes, some (Except.ok given)⟩) :
    signer.address.verifies bytes given = true := by
  obtain ⟨_, hanswer⟩ := h _ rfl
  cases hverifies : signer.address.verifies bytes signature with
  | true =>
    simp only [scrupulous, hverifies] at hanswer
    cases hanswer
    exact hverifies
  | false =>
    simp only [scrupulous, hverifies] at hanswer
    cases hanswer

theorem run_signers_delegateGem :
    let payer : Signer :=
      ⟨0, .ofNat 0x8a88e3dd7409f195fd52db2d3cba5d72ca6709bf1d94121bf3748801b40f6f5c, .inMemory⟩
    let ctx : Context := ⟨⟨.replicate 32 229⟩, none, none, some 5⟩
    let command : Command := delegateGem payer.address 0
    ∃ exchanges cache' bytes signature m, (command.run ctx payer (.empty 0)).Trace exchanges cache'
      (some (.ok ⟨"accepted"⟩)) ∧
    (∀ signer bytes (answer : Except ClientError Signature),
      ⟨.sign signer bytes, some answer⟩ ∈ exchanges →
      ∃ signature, answer = .ok signature ∧ signer.address.verifies bytes signature = true) ∧
    ⟨.sign payer bytes, some (Except.ok signature)⟩ ∈ exchanges ∧ command.Compiles ctx payer m ∧
    m.serialize = .ok bytes ∧ m.signerKeys = [payer.address] := by
  intro payer ctx command
  let signature : Signature :=
    ⟨[64, 83, 10, 222, 130, 235, 95, 26, 51, 4, 218, 83, 44, 56, 223, 63, 81, 25, 123, 93, 87, 74,
    205, 172, 145, 131, 208, 135, 76, 251, 239, 42, 135, 250, 238, 99, 232, 107, 203, 167, 208, 139,
    14, 119, 225, 68, 60, 86, 55, 97, 44, 184, 44, 86, 149, 151, 31, 200, 36, 35, 105, 38, 166, 13],
    rfl⟩
  obtain ⟨moments, htimed, hanswers⟩ :=
    exists_timed_of_run (scrupulous signature) none (command.run ctx payer (.empty 0)) 0 ()
  have hr : (((command.run ctx payer (.empty 0)).run (scrupulous signature) none 0).run ()).1.2.2 =
      some (.ok ⟨"accepted"⟩) := by
    decide +kernel
  rw [hr] at htimed
  have h := htimed.trace
  have hverify (signer : Signer) (bytes : Bytes) (answer : Except ClientError Signature)
      (hmem : ⟨.sign signer bytes, some answer⟩ ∈ Moment.exchanges moments) :
      ∃ signature, answer = .ok signature ∧ signer.address.verifies bytes signature = true := by
    cases (prompt_of_run h).succeeds _ hmem with
    | sign given => exact ⟨given, rfl, verifies_of_scrupulous (hanswers _ hmem)⟩
  obtain ⟨hkeys, hsign, -⟩ := run_signers h
  obtain ⟨bytes, given, hmem⟩ := exists_sign_of_ok h (List.mem_singleton_self payer)
  obtain ⟨-, m, hcompiles, hserialize⟩ := hsign payer bytes _ hmem
  exact ⟨_, _, bytes, given, m, h, hverify, hmem, hcompiles, hserialize, hkeys m hcompiles⟩

end ValidatorClient.Command
