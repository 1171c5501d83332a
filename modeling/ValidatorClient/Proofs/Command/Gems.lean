import Mathlib.Data.List.Perm.Subperm
import ValidatorClient.Proofs.Command.Submission
import ValidatorClient.Proofs.Program.Request

namespace ValidatorClient

open Ledger Program Attempt Process
open List (Forall₂)

inductive NumberedAccount.IsAt (location : UInt32 → Location) : NumberedAccount → Address → Prop
  | address (a : Address) : IsAt location (.address a) a
  | numeration {n : UInt32} {a : Address} (h : locate (location n) = .ok a) :
      IsAt location (.numeration n) a

theorem NumberedAccount.IsAt.unique {location : UInt32 → Location} {account : NumberedAccount}
    {a b : Address} (ha : account.IsAt location a) (hb : account.IsAt location b) : a = b := by
  cases ha with
  | address =>
    cases hb
    rfl
  | numeration ha =>
    cases hb with
    | numeration hb => exact Except.ok.inj (ha.symm.trans hb)

theorem Context.isAt_of_resolveNumbered {σ : Type} {s s' : σ} {ctx : Context}
    {location : UInt32 → Location} {counter : GeneralAccount → UInt32} {account : NumberedAccount}
    {exchanges : List Exchange} {a : Address} {n : UInt32}
    (h : (ctx.resolveNumbered location counter account s).Trace exchanges s' (some (.ok (a, n)))) :
    account.IsAt location a := by
  cases account with
  | numeration m =>
    have hresolve : resolve location none (some m) 0 = .ok (a, n) :=
      (Option.some.inj (trace_ofExcept_iff.1 h).2.2).symm
    obtain ⟨address, haddress, hfound⟩ := Except.bind_eq_ok_iff.1 hresolve
    cases hfound
    exact .numeration haddress
  | address target =>
    rcases trace_bind_cases h with ⟨stop, -, hr⟩ | ⟨_, _, _, g, -, -, h⟩
    · exact absurd hr.symm (stop_ne_ok stop _)
    have hresolve : resolve location (some target) none (counter g) = .ok (a, n) :=
      (Option.some.inj (trace_ofExcept_iff.1 h).2.2).symm
    obtain ⟨_, -, hfound⟩ := Except.bind_eq_ok_iff.1 hresolve
    cases hfound
    exact .address _

namespace Command

theorem reads_listing_accounts {σ : Type} {s : σ} (i : Program.Instruction)
    (accounts : List Listed) :
    Reads s (listing i accounts) fun _ prepared ↦
      accounts.mapM Listed.account = .ok prepared.accounts := by
  refine (reads_ofExcept fun e he ↦ ?_).imp fun _ prepared hprepared ↦ ?_
  · rcases Except.bind_eq_error_iff.1 he with he | ⟨_, -, he⟩
    · exact ofPreparation_of_accounts he
    · cases he
  · obtain ⟨metas, hmetas, hp⟩ := Except.bind_eq_ok_iff.1 hprepared.2
    cases hp
    exact hmetas

end Command

inductive GemsCommand where
  | withdrawRewards (logLevel : UInt8)
  | vote (approve : Bool) (logLevel : UInt8)

namespace GemsCommand

open Command (Listed gemTriple)

def command (account : NumberedAccount) (mints : List Address) : GemsCommand → Command
  | withdrawRewards level => .withdrawRewards account mints level
  | vote approve level => .vote account approve mints level

def request (numeration : UInt32) (count : Nat) : GemsCommand → Request
  | withdrawRewards level => .withdrawRewards count level
  | vote approve level => .vote numeration approve count level

def limit : GemsCommand → Nat
  | withdrawRewards _ => 4294967295
  | vote _ _ => 255

def location (program : Address) : GemsCommand → UInt32 → Location
  | withdrawRewards _ => .voteAccount program
  | vote _ _ => .proposal program

def countBefore : GemsCommand → Nat
  | withdrawRewards _ => 4
  | vote _ _ => 2

def countAfter : GemsCommand → Nat
  | withdrawRewards _ => 2
  | vote _ _ => 1

def triple (gem mint token : Address) : GemsCommand → List Address
  | withdrawRewards _ => [token, mint, gem]
  | vote _ _ => [gem, mint, token]

def singles : GemsCommand → List SingleAccount
  | withdrawRewards _ => [.general, .authorizedWithdrawer]
  | vote _ _ => []

def programs : GemsCommand → List Address
  | withdrawRewards _ => [WellKnown.system, WellKnown.vote]
  | vote _ _ => [WellKnown.system]

/-- An account that has no place outside the message. -/
inductive Needs (c : GemsCommand) (ctx : Context) (payer : Address) (account : NumberedAccount)
    (mints : List Address) : Address → Prop
  | payer : Needs c ctx payer account mints payer
  | program : Needs c ctx payer account mints ctx.program
  | budget (h : ctx.budget ≠ []) : Needs c ctx payer account mints WellKnown.computeBudget
  | numbered {a : Address} (h : account.IsAt (c.location ctx.program) a) :
      Needs c ctx payer account mints a
  | single {single : SingleAccount} {a : Address} (h : single ∈ c.singles)
      (ha : ctx.single single = .ok a) :
      Needs c ctx payer account mints a
  | wellKnown {a : Address} (h : a ∈ c.programs) : Needs c ctx payer account mints a
  | mint {mint : Address} (h : mint ∈ mints) : Needs c ctx payer account mints mint
  | gem {mint a : Address} (h : mint ∈ mints) (ha : ctx.gem mint = .ok a) :
      Needs c ctx payer account mints a
  | token {mint a : Address} (h : mint ∈ mints)
      (ha : locate (.associatedToken payer mint) = .ok a) :
      Needs c ctx payer account mints a

/-- A message tells the program of just these gems, each with its three accounts. -/
structure Tells (c : GemsCommand) (ctx : Context) (payer : Address) (mints : List Address)
    (m : Message) (i : CompiledInstruction) : Prop where
  program : m.accountKeys[i.programIndex.toNat]? = some ctx.program
  request : ∃ told numeration, Program.Instruction.layout.decodeAll i.data = .ok told ∧
    told.request = c.request numeration mints.length
  length : i.accountIndices.length = c.countBefore + 3 * mints.length + c.countAfter
  triples : ∀ (k : Nat) mint, mints[k]? = some mint →
    ∃ gem token, ctx.gem mint = .ok gem ∧ locate (.associatedToken payer mint) = .ok token ∧
      ((i.accountIndices.map fun index ↦ m.accountKeys[index.toNat]?).drop
          (c.countBefore + 3 * k)).take 3 =
        (c.triple gem mint token).map some

variable {c : GemsCommand} {ctx : Context} {account : NumberedAccount} {mints : List Address}

section Listed

def before (ctx : Context) (payer found : Address) (c : GemsCommand) : List Listed :=
  [.payer payer, .writable found] ++ c.singles.map fun single ↦
    .writableAt (.single ctx.program single)

def gemAccounts (ctx : Context) (payer mint : Address) : GemsCommand → List Listed
  | withdrawRewards _ => (gemTriple ctx.program payer mint).reverse
  | vote _ _ => gemTriple ctx.program payer mint

def listed (ctx : Context) (payer found : Address) (mints : List Address) (c : GemsCommand) :
    List Listed :=
  c.before ctx payer found ++ mints.flatMap (fun mint ↦ c.gemAccounts ctx payer mint) ++
    c.programs.map .readonly

variable {payer found : Address} {metas : List AccountMeta}

theorem reads_prepare {σ : Type} {s : σ} (c : GemsCommand) (account : NumberedAccount)
    (mints : List Address) :
    Reads s ((c.command account mints).prepare ctx payer) fun _ prepared ↦
      ∃ found, account.IsAt (c.location ctx.program) found ∧
        (c.listed ctx payer found mints).mapM Listed.account = .ok prepared.accounts := by
  cases c with
  | withdrawRewards level =>
    refine Command.reads_checked_bind fun i _ ↦
      (Context.reads_resolveNumbered _ _ account).bind fun _ found h ↦ ?_
    exact (Command.reads_listing_accounts i _).imp fun _ _ hlisted ↦
      ⟨found.1, Context.isAt_of_resolveNumbered h, hlisted⟩
  | vote approve level =>
    refine (Context.reads_resolveNumbered _ _ account).bind fun _ found h ↦
      Command.reads_checked_bind fun i _ ↦ ?_
    exact (Command.reads_listing_accounts i _).imp fun _ _ hlisted ↦
      ⟨found.1, Context.isAt_of_resolveNumbered h, hlisted⟩

theorem length_before : (c.before ctx payer found).length = c.countBefore := by
  cases c <;> rfl

theorem length_gemAccounts (mint : Address) : (c.gemAccounts ctx payer mint).length = 3 := by
  cases c <;> rfl

theorem length_listed :
    (c.listed ctx payer found mints).length = c.countBefore + 3 * mints.length + c.countAfter := by
  have hafter : c.programs.length = c.countAfter := by
    cases c <;> rfl
  simp [listed, length_before, length_gemAccounts, List.length_flatMap, hafter, Nat.mul_comm,
    Nat.add_assoc]

theorem take_drop_flatMap {α β : Type} {f : α → List β} {width : Nat}
    (hf : ∀ a, (f a).length = width) {as : List α} {k : Nat} {a : α} (h : as[k]? = some a)
    (rest : List β) :
    ((as.flatMap f ++ rest).drop (width * k)).take width = f a := by
  induction as generalizing k with
  | nil => cases h
  | cons b as ih =>
    rw [List.flatMap_cons, List.append_assoc]
    cases k with
    | zero =>
      cases h
      exact List.take_left' (hf a)
    | succ k =>
      rw [Nat.mul_succ, Nat.add_comm, ← List.drop_drop, List.drop_left' (hf b)]
      exact ih h

theorem take_drop_listed {k : Nat} {mint : Address} (h : mints[k]? = some mint) :
    ((c.listed ctx payer found mints).drop (c.countBefore + 3 * k)).take 3 =
      c.gemAccounts ctx payer mint := by
  rw [listed, List.append_assoc, ← List.drop_drop, List.drop_left' length_before]
  exact take_drop_flatMap length_gemAccounts h _

theorem exists_of_forall₂_triple {α β : Type} {R : α → β → Prop} {a b c : α} {l : List β}
    (h : Forall₂ R [a, b, c] l) :
    ∃ x y z, R a x ∧ R b y ∧ R c z ∧ l = [x, y, z] := by
  obtain ⟨x, l₁, hx, h₁, rfl⟩ := List.forall₂_cons_left_iff.1 h
  obtain ⟨y, l₂, hy, h₂, rfl⟩ := List.forall₂_cons_left_iff.1 h₁
  obtain ⟨z, l₃, hz, h₃, rfl⟩ := List.forall₂_cons_left_iff.1 h₂
  rw [List.forall₂_nil_left_iff.1 h₃]
  exact ⟨x, y, z, hx, hy, hz, rfl⟩

theorem map_address_of_gemAccounts {mint : Address}
    (h : Forall₂ (fun l a ↦ Listed.account l = .ok a) (c.gemAccounts ctx payer mint) metas) :
    ∃ gem token, ctx.gem mint = .ok gem ∧ locate (.associatedToken payer mint) = .ok token ∧
      metas.map (·.address) = c.triple gem mint token := by
  have haddress := h.imp fun _ _ h ↦ Listed.address_of_account h
  cases c with
  | withdrawRewards =>
    obtain ⟨token, second, gem, htoken, hmint, hgem, hmetas⟩ := exists_of_forall₂_triple haddress
    refine ⟨gem.address, token.address, hgem, htoken, ?_⟩
    rw [hmetas, Except.ok.inj hmint]
    rfl
  | vote =>
    obtain ⟨gem, second, token, hgem, hmint, htoken, hmetas⟩ := exists_of_forall₂_triple haddress
    refine ⟨gem.address, token.address, hgem, htoken, ?_⟩
    rw [hmetas, Except.ok.inj hmint]
    rfl

theorem mem_of_listed {l : Listed} {a : Address}
    (h : (c.listed ctx payer found mints).mapM Listed.account = .ok metas)
    (hl : l ∈ c.listed ctx payer found mints) (ha : l.address = .ok a) :
    a ∈ metas.map (·.address) := by
  obtain ⟨b, hb, haccount⟩ := (Except.mem_of_mapM_eq_ok h).2 l hl
  cases (Listed.address_of_account haccount).symm.trans ha
  exact List.mem_map_of_mem hb

theorem mem_gemAccounts_iff {l : Listed} {mint : Address} :
    l ∈ c.gemAccounts ctx payer mint ↔ l ∈ gemTriple ctx.program payer mint := by
  cases c with
  | withdrawRewards => exact List.mem_reverse
  | vote => rfl

theorem mem_listed_of_gemTriple {l : Listed} {mint : Address} (hmint : mint ∈ mints)
    (h : l ∈ gemTriple ctx.program payer mint) : l ∈ c.listed ctx payer found mints :=
  List.mem_append_left _
    (List.mem_append_right _ (List.mem_flatMap.2 ⟨mint, hmint, mem_gemAccounts_iff.2 h⟩))

theorem program_of_mem_budget {i : Ledger.Instruction} (h : i ∈ ctx.budget) :
    i.program = WellKnown.computeBudget := by
  simp only [Context.budget, List.mem_append, Option.mem_toList, Option.map_eq_some_iff] at h
  rcases h with (⟨_, -, hi⟩ | ⟨_, -, hi⟩) | ⟨_, -, hi⟩
  all_goals
    rw [← hi]
    rfl

theorem Needs.mem_mentions {key : Address} {data : Bytes}
    (hneeds : c.Needs ctx payer account mints key)
    (hfound : account.IsAt (c.location ctx.program) found)
    (hlisted : (c.listed ctx payer found mints).mapM Listed.account = .ok metas) :
    key ∈ Message.mentions (ctx.budget ++ [⟨ctx.program, metas, data⟩]) payer := by
  have hlast {a : Address} (h : a ∈ metas.map (·.address) ++ [ctx.program]) :
      a ∈ Message.mentions (ctx.budget ++ [⟨ctx.program, metas, data⟩]) payer :=
    List.mem_cons_of_mem _ (List.mem_flatMap.2 ⟨⟨ctx.program, metas, data⟩, by simp, h⟩)
  have hmem {l : Listed} {a : Address} (hl : l ∈ c.listed ctx payer found mints)
      (ha : l.address = .ok a) :
      a ∈ Message.mentions (ctx.budget ++ [⟨ctx.program, metas, data⟩]) payer :=
    hlast (List.mem_append_left _ (mem_of_listed hlisted hl ha))
  cases hneeds with
  | payer => exact List.mem_cons_self
  | program => exact hlast (List.mem_append_right _ (List.mem_singleton_self _))
  | budget h =>
    obtain ⟨i, hi⟩ := List.exists_mem_of_ne_nil _ h
    refine List.mem_cons_of_mem _
      (List.mem_flatMap.2 ⟨i, List.mem_append_left _ hi, List.mem_append_right _ ?_⟩)
    rw [program_of_mem_budget hi]
    exact List.mem_singleton_self _
  | numbered h =>
    rw [h.unique hfound]
    exact hmem (l := .writable found) (by simp [listed, before]) rfl
  | @single single _ h ha =>
    exact hmem (l := .writableAt (.single ctx.program single)) (by simp [listed, before, h]) ha
  | wellKnown h => exact hmem (l := .readonly key) (by simp [listed, h]) rfl
  | mint h => exact hmem (l := .writable key) (mem_listed_of_gemTriple h (by simp [gemTriple])) rfl
  | @gem mint _ h ha =>
    exact hmem (l := .writableAt (.gem ctx.program mint))
      (mem_listed_of_gemTriple h (by simp [gemTriple])) ha
  | @token mint _ h ha =>
    exact hmem (l := .writableAt (.associatedToken payer mint))
      (mem_listed_of_gemTriple h (by simp [gemTriple])) ha

theorem map_accountKeys {m : Message} {i : CompiledInstruction} {data : Bytes}
    (h : m.Places ⟨ctx.program, metas, data⟩ i) :
    i.accountIndices.map (fun index ↦ m.accountKeys[index.toNat]?) = metas.map fun a ↦
      some a.address := by
  rw [← List.forall₂_eq_eq_eq, List.forall₂_map_left_iff, List.forall₂_map_right_iff]
  exact h.accounts.flip

theorem tells_of_places {numeration : UInt32} {told : Program.Instruction} {m : Message}
    {i : CompiledInstruction} {data : Bytes}
    (htold : (c.request numeration mints.length).check = .ok told)
    (hdata : Program.Instruction.layout.encode told = .ok data)
    (hlisted : (c.listed ctx payer found mints).mapM Listed.account = .ok metas)
    (h : m.Places ⟨ctx.program, metas, data⟩ i) : c.Tells ctx payer mints m i := by
  have haccounts := Except.mapM_eq_ok_iff.1 hlisted
  refine ⟨h.program, ⟨told, numeration, ?_, (Request.check_eq_ok_iff.1 htold).2⟩, ?_,
    fun k mint hmint ↦ ?_⟩
  · rw [h.data]
    exact Codec.Layout.decodeAll_eq_ok_iff.2 hdata
  · rw [← h.accounts.length_eq, ← haccounts.length_eq, length_listed]
  · have htriple := List.forall₂_take 3 (List.forall₂_drop (c.countBefore + 3 * k) haccounts)
    rw [take_drop_listed hmint] at htriple
    obtain ⟨gem, token, hgem, htoken, haddress⟩ := map_address_of_gemAccounts htriple
    refine ⟨gem, token, hgem, htoken, ?_⟩
    rw [map_accountKeys h, ← haddress, ← List.map_drop, ← List.map_take, List.map_map]
    rfl

end Listed

section Run

variable {payer : Signer} {cache cache' : BlockhashCache} {exchanges : List Exchange}
  {r : Option (Except ClientError Submission)} {wire : Bytes} {lastValidHeight : UInt64}
  {answer : Option (Except RpcError Submission)}

theorem instruction_eq (c : GemsCommand) (account : NumberedAccount) (mints : List Address)
    (numeration : UInt32) :
    (c.command account mints).instruction numeration =
      (c.request numeration mints.length).check := by
  cases c <;> rfl

theorem bounds_of_inRange {numeration : UInt32} (h : (c.request numeration mints.length).InRange) :
    mints ≠ [] ∧ mints.length ≤ c.limit := by
  rw [← List.length_pos_iff]
  cases c with
  | withdrawRewards => exact h.2
  | vote => exact h.2

theorem exists_of_submit
    (h : ((c.command account mints).run ctx payer cache).Trace exchanges cache' r)
    (hmem : ⟨.submit wire lastValidHeight, answer⟩ ∈ exchanges) :
    ∃ signatures bytes m earlier i, Wire.split wire = .ok (signatures, bytes) ∧
      m.serialize = .ok bytes ∧
      m.instructions = earlier ++ [i] ∧ earlier.length = ctx.budget.length ∧
      c.Tells ctx payer.address mints m i ∧
      (mints ≠ [] ∧ mints.length ≤ c.limit) ∧ m.accountKeys.length ≤ 255 ∧
      ∀ key, c.Needs ctx payer.address account mints key → key ∈ m.accountKeys := by
  obtain ⟨reads, prepared, data, compiled, hprepare, ⟨numeration, htold, -⟩, hdata,
      hsound, hwire⟩ :=
    Command.exists_compiled_of_submit h hmem
  obtain ⟨-, -, -, -, hpost⟩ := reads_prepare c account mints _ _ _ hprepare
  obtain ⟨found, hfound, hlisted⟩ := hpost _ rfl
  obtain ⟨signatures, hsplit, -⟩ := hsound.wire hwire
  rw [instruction_eq] at htold
  have hplaces :=
    Message.places_compileInstruction hsound.compiles (i := ⟨ctx.program, prepared.accounts, data⟩)
      (List.mem_append_right _ (List.mem_singleton_self _))
  refine ⟨signatures, compiled.bytes, compiled.message, _, _, hsplit, hsound.serializes,
    (Message.instructions_eq hsound.compiles).trans List.map_append, List.length_map _,
    tells_of_places htold hdata hlisted hplaces,
    bounds_of_inRange (Request.check_eq_ok_iff.1 htold).1,
    Message.length_accountKeys_le hsound.compiles, fun key hneeds ↦ ?_⟩
  exact (Message.mem_accountKeys_iff hsound.compiles).2 (hneeds.mem_mentions hfound hlisted)

/-- The count and the accounts that the program is told are those of all gems, in their order. What
has no place there is refused, and not sent at all. -/
theorem run_tells (h : ((c.command account mints).run ctx payer cache).Trace exchanges cache' r) :
    (∀ wire lastValidHeight answer, ⟨.submit wire lastValidHeight, answer⟩ ∈ exchanges →
      ∃ signatures bytes m earlier i, Wire.split wire = .ok (signatures, bytes) ∧
        m.serialize = .ok bytes ∧
        m.instructions = earlier ++ [i] ∧ earlier.length = ctx.budget.length ∧
        c.Tells ctx payer.address mints m i) ∧
    ((mints = [] ∨ c.limit < mints.length ∨ ∃ keys : List Address, keys.Nodup ∧ 255 < keys.length ∧
        ∀ key ∈ keys, c.Needs ctx payer.address account mints key) →
      (∀ wire lastValidHeight answer, ⟨.submit wire lastValidHeight, answer⟩ ∉ exchanges) ∧
      ((∃ e, r = some (.error e)) ∨ r = none ∧ ∃ e ∈ exchanges, e.answer = none)) := by
  refine ⟨fun wire lastValidHeight answer hmem ↦ ?_, fun hmany ↦ ?_⟩
  · obtain ⟨signatures, bytes, m, earlier, i, hsplit, hserialize, hinstructions,
      hearlier, htells, -⟩ :=
      exists_of_submit h hmem
    exact ⟨signatures, bytes, m, earlier, i, hsplit, hserialize, hinstructions, hearlier, htells⟩
  have hnone (wire : Bytes) (lastValidHeight : UInt64)
      (answer : Option (Except RpcError Submission)) :
      ⟨.submit wire lastValidHeight, answer⟩ ∉ exchanges := by
    intro hmem
    obtain ⟨_, _, m, _, _, -, -, -, -, -, ⟨hne, hle⟩, hkeys, hneeds⟩ := exists_of_submit h hmem
    rcases hmany with hnil | hlt | ⟨keys, hnodup, hlt, hall⟩
    · exact hne hnil
    · exact absurd hle (Nat.not_le.2 hlt)
    · have hsub := (hnodup.subperm fun key hkey ↦ hneeds key (hall key hkey)).length_le
      omega
  refine ⟨hnone, ?_⟩
  rcases r with _ | e | submission
  · exact .inr ⟨rfl, h.exists_unanswered⟩
  · exact .inl ⟨e, rfl⟩
  · obtain ⟨wire, lastValidHeight, hmem⟩ := Command.exists_submit_of_ok h
    exact absurd hmem (hnone _ _ _)

theorem run_tells_vote :
    let payer : Signer :=
      ⟨0, .ofNat 0x8a88e3dd7409f195fd52db2d3cba5d72ca6709bf1d94121bf3748801b40f6f5c, .inMemory⟩
    let ctx : Context := ⟨⟨.replicate 32 17⟩, none, none, some 5⟩
    let mint : Address := ⟨.replicate 32 2⟩
    let c : GemsCommand := .vote true 0
    (∃ exchanges cache' wire lastValidHeight signatures bytes,
      ∃ (m : Message) (earlier : List CompiledInstruction) (i : CompiledInstruction),
      ((c.command (.numeration 1) [mint, mint]).run ctx payer (.empty 0)).Trace exchanges cache'
        (some (.ok ⟨"accepted"⟩)) ∧
      ⟨.submit wire lastValidHeight, some (Except.ok ⟨"accepted"⟩)⟩ ∈ exchanges ∧
      Wire.split wire = .ok (signatures, bytes) ∧ m.serialize = .ok bytes ∧
      m.instructions = earlier ++ [i] ∧ i.accountIndices.length = 9 ∧
      ∃ told numeration, Program.Instruction.layout.decodeAll i.data = .ok told ∧
        told.request = .vote numeration true 2 0) ∧
    ∃ exchanges cache' e,
      ((c.command (.numeration 1) []).run ctx payer (.empty 0)).Trace exchanges cache'
        (some (.error e)) ∧
      ∀ wire lastValidHeight answer, ⟨.submit wire lastValidHeight, answer⟩ ∉ exchanges := by
  intro payer ctx mint c
  let signature : Signature :=
    ⟨[175, 145, 89, 143, 151, 43, 22, 71, 41, 187, 63, 229, 154, 219, 30, 235, 125, 43, 11, 209,
    228, 125, 156, 148, 203, 143, 70, 123, 54, 236, 9, 156, 197, 181, 154, 38, 107, 181, 179, 253,
    202, 176, 210, 142, 223, 223, 170, 13, 160, 78, 2, 12, 210, 158, 185, 20, 177, 41, 225, 122,
    205, 170, 156, 3], rfl⟩
  constructor
  · obtain ⟨exchanges, h⟩ := exists_trace_of_run (Command.obliging signature) none
      ((c.command (.numeration 1) [mint, mint]).run ctx payer (.empty 0)) 0 ()
    have hr : ((((c.command (.numeration 1) [mint, mint]).run ctx payer (.empty 0)).run
        (Command.obliging signature) none 0).run ()).1.2.2 = some (.ok ⟨"accepted"⟩) := by
      decide +kernel
    rw [hr] at h
    obtain ⟨wire, lastValidHeight, hmem⟩ := Command.exists_submit_of_ok h
    obtain ⟨signatures, bytes, m, earlier, i, hsplit, hserialize, hinstructions, -, htells⟩ :=
      (run_tells h).1 _ _ _ hmem
    exact ⟨exchanges, _, wire, lastValidHeight, signatures, bytes, m, earlier, i, h, hmem, hsplit,
      hserialize, hinstructions, htells.length, htells.request⟩
  · obtain ⟨exchanges, h⟩ := exists_trace_of_run (Command.obliging signature) none
      ((c.command (.numeration 1) []).run ctx payer (.empty 0)) 0 ()
    have hr : ((((c.command (.numeration 1) []).run ctx payer (.empty 0)).run
        (Command.obliging signature) none 0).run ()).1.2.2 =
          some (.error (.invalidArgument (.argument (.noGems "vote_governance")))) := by
      decide +kernel
    rw [hr] at h
    exact ⟨exchanges, _, _, h, ((run_tells h).2 (.inl rfl)).1⟩

end Run

end GemsCommand

end ValidatorClient
