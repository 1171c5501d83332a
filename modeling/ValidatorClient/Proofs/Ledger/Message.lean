import ValidatorClient.Proofs.Except
import ValidatorClient.Proofs.Ledger.Accounts

namespace ValidatorClient.Ledger

open List (Forall₂)

namespace Message

variable {instructions : List Instruction} {feePayer : Address} {blockhash : Blockhash}
  {m : Message} {key : Address} {i : Nat}

def mentions (instructions : List Instruction) (feePayer : Address) : List Address :=
  feePayer :: instructions.flatMap fun i ↦ i.accounts.map (·.address) ++ [i.program]

/-- Someone gives the account a right. The fee payer has all rights, and a program gets none from
being called. -/
def Grants (right : AccountMeta → Bool) (instructions : List Instruction)
    (feePayer key : Address) : Prop :=
  key = feePayer ∨ ∃ i ∈ instructions, ∃ a ∈ i.accounts, a.address = key ∧ right a = true

theorem Grants.mem_mentions {right : AccountMeta → Bool}
    (h : Grants right instructions feePayer key) :
    key ∈ mentions instructions feePayer := by
  rcases h with hpayer | ⟨i, hi, a, ha, haddress, -⟩
  · rw [hpayer]
    exact List.mem_cons_self
  · refine List.mem_cons_of_mem _ (List.mem_flatMap.2 ⟨i, hi, List.mem_append_left _ ?_⟩)
    exact List.mem_map.2 ⟨a, ha, haddress⟩

def IsSignerAt (m : Message) (i : Nat) : Prop := i < m.requiredSignatures.toNat

theorem getElem?_signerKeys_iff :
    m.signerKeys[i]? = some key ↔ m.IsSignerAt i ∧ m.accountKeys[i]? = some key := by
  rw [signerKeys, List.getElem?_take, IsSignerAt]
  by_cases hi : i < m.requiredSignatures.toNat
  all_goals simp [hi]

/-- The place is among the last ones of those that sign or of those that do not, as many as the
header says. -/
def IsReadonlyAt (m : Message) (i : Nat) : Prop :=
  i < m.requiredSignatures.toNat ∧ m.requiredSignatures.toNat ≤ i + m.readonlySigned.toNat ∨
    m.requiredSignatures.toNat ≤ i ∧ m.accountKeys.length ≤ i + m.readonlyUnsigned.toNat

structure Places (m : Message) (i : Instruction) (c : CompiledInstruction) : Prop where
  data : c.data = i.data
  program : m.accountKeys[c.programIndex.toNat]? = some i.program
  accounts :
    Forall₂ (fun a index ↦ m.accountKeys[UInt8.toNat index]? = some (AccountMeta.address a))
    i.accounts c.accountIndices

/-- A message says what its instructions and its fee payer say. -/
structure Represents (m : Message) (instructions : List Instruction) (feePayer : Address) :
    Prop where
  nodup : m.accountKeys.Nodup
  mem_iff : ∀ key, key ∈ m.accountKeys ↔ key ∈ mentions instructions feePayer
  payer : m.accountKeys[0]? = some feePayer
  readonlySigned_lt : m.readonlySigned.toNat < m.requiredSignatures.toNat
  readonlyUnsigned_le :
    m.requiredSignatures.toNat + m.readonlyUnsigned.toNat ≤ m.accountKeys.length
  isSigner_iff : ∀ i key, m.accountKeys[i]? = some key →
    (m.IsSignerAt i ↔ Grants (·.isSigner) instructions feePayer key)
  isReadonly_iff : ∀ i key, m.accountKeys[i]? = some key →
    (m.IsReadonlyAt i ↔ ¬ Grants (·.isWritable) instructions feePayer key)
  ordered : ∀ i j k l, m.accountKeys[i]? = some k → m.accountKeys[j]? = some l →
    (m.IsSignerAt i ↔ m.IsSignerAt j) → (m.IsReadonlyAt i ↔ m.IsReadonlyAt j) → i < j →
    (mentions instructions feePayer).idxOf k < (mentions instructions feePayer).idxOf l
  instructions : Forall₂ m.Places instructions m.instructions

theorem map_address_occurrences :
    (occurrences instructions feePayer).map (·.address) = mentions instructions feePayer := by
  simp [occurrences, mentions, AccountMeta.writableSigner, AccountMeta.readonly, List.map_flatMap]

theorem any_occurrences_iff {right : AccountMeta → Bool}
    (hpayer : right (.writableSigner feePayer) = true)
    (hprogram : ∀ program, right (.readonly program) = false) :
    (occurrences instructions feePayer).any (fun a ↦ a.address == key && right a) = true ↔
      Grants right instructions feePayer key := by
  simp only [occurrences, List.any_cons, List.any_flatMap, List.any_append, Bool.or_eq_true,
    Bool.and_eq_true, List.any_eq_true, beq_iff_eq, hpayer, hprogram, Grants, eq_comm (a := key)]
  simp [AccountMeta.writableSigner, AccountMeta.readonly]

theorem rights_isSigner_iff :
    (rights (occurrences instructions feePayer) key).isSigner = true ↔
      Grants (·.isSigner) instructions feePayer key :=
  any_occurrences_iff rfl fun _ ↦ rfl

theorem rights_isWritable_iff :
    (rights (occurrences instructions feePayer) key).isWritable = true ↔
      Grants (·.isWritable) instructions feePayer key :=
  any_occurrences_iff rfl fun _ ↦ rfl

def entries (instructions : List Instruction) (feePayer : Address) : List AccountMeta :=
  arrange (collect (occurrences instructions feePayer))

theorem collect_occurrences :
    collect (occurrences instructions feePayer) =
      (mentions instructions feePayer).eraseDups.map
        (rights (occurrences instructions feePayer)) := by
  rw [collect_eq, map_address_occurrences]

theorem eq_rights_of_mem_entries {e : AccountMeta} (h : e ∈ entries instructions feePayer) :
    e = rights (occurrences instructions feePayer) e.address := by
  rw [entries, (arrange_perm _).mem_iff, collect_occurrences] at h
  obtain ⟨key, -, he⟩ := List.mem_map.1 h
  rw [← he, rights_address]

theorem map_address_entries_perm :
    ((entries instructions feePayer).map (·.address)).Perm
      (mentions instructions feePayer).eraseDups := by
  refine ((arrange_perm _).map _).trans ?_
  rw [collect_occurrences, List.map_map]
  simp [Function.comp_def]

/-- The fee payer is met first, with all rights, so it comes first in the first class. -/
theorem head?_entries (instructions : List Instruction) (feePayer : Address) :
    (entries instructions feePayer).head? = some (.writableSigner feePayer) := by
  have hrights :
      rights (occurrences instructions feePayer) feePayer = .writableSigner feePayer := by
    simp [rights, occurrences, AccountMeta.writableSigner]
  have hcollect : collect (occurrences instructions feePayer) = _ := collect_occurrences
  rw [mentions, List.eraseDups_cons, List.map_cons, hrights] at hcollect
  rw [entries, hcollect]
  simp [arrange, AccountMeta.writableSigner]

theorem pairwise_entries (instructions : List Instruction) (feePayer : Address) :
    (entries instructions feePayer).Pairwise fun a b ↦
      a.isSigner = b.isSigner → a.isWritable = b.isWritable →
      (mentions instructions feePayer).idxOf a.address <
        (mentions instructions feePayer).idxOf b.address := by
  refine pairwise_arrange ?_
  rw [collect_occurrences, List.pairwise_map]
  exact pairwise_eraseDups _

theorem compile_eq_ok_iff :
    compile instructions feePayer blockhash = .ok m ↔
      (entries instructions feePayer).length ≤ 255 ∧
        m = {
          requiredSignatures := UInt8.ofNat ((entries instructions feePayer).countP (·.isSigner))
          readonlySigned := UInt8.ofNat
            ((entries instructions feePayer).countP fun a ↦ a.isSigner && !a.isWritable)
          readonlyUnsigned := UInt8.ofNat
            ((entries instructions feePayer).countP fun a ↦ !a.isSigner && !a.isWritable)
          accountKeys := (entries instructions feePayer).map (·.address)
          blockhash := blockhash
          instructions := instructions.map
            (compileInstruction ((entries instructions feePayer).map (·.address))) } := by
  rw [← Nat.not_lt, compile]
  change (if 255 < (entries instructions feePayer).length then _ else _) = _ ↔ _
  by_cases h : 255 < (entries instructions feePayer).length
  · simp [h]
  · rw [if_neg h, Except.ok.injEq]
    exact ⟨fun hm ↦ ⟨h, hm.symm⟩, fun hm ↦ hm.2.symm⟩

section Compiled

variable (h : compile instructions feePayer blockhash = .ok m)
include h

theorem length_accountKeys_le : m.accountKeys.length ≤ 255 := by
  obtain ⟨hle, hm⟩ := compile_eq_ok_iff.1 h
  rw [hm, List.length_map]
  exact hle

theorem toNat_countP (p : AccountMeta → Bool) :
    (UInt8.ofNat ((entries instructions feePayer).countP p)).toNat =
      (entries instructions feePayer).countP p := by
  have hle := (compile_eq_ok_iff.1 h).1
  have hp := List.countP_le_length (p := p) (l := entries instructions feePayer)
  exact UInt8.toNat_ofNat_of_lt' (Nat.lt_of_le_of_lt hp (Nat.lt_of_le_of_lt hle (by decide)))

theorem requiredSignatures_toNat :
    m.requiredSignatures.toNat = (entries instructions feePayer).countP (·.isSigner) := by
  have hcount := toNat_countP h (·.isSigner)
  rw [(compile_eq_ok_iff.1 h).2]
  exact hcount

theorem readonlySigned_toNat :
    m.readonlySigned.toNat =
      (entries instructions feePayer).countP fun a ↦ a.isSigner && !a.isWritable := by
  have hcount := toNat_countP h fun a ↦ a.isSigner && !a.isWritable
  rw [(compile_eq_ok_iff.1 h).2]
  exact hcount

theorem readonlyUnsigned_toNat :
    m.readonlyUnsigned.toNat =
      (entries instructions feePayer).countP fun a ↦ !a.isSigner && !a.isWritable := by
  have hcount := toNat_countP h fun a ↦ !a.isSigner && !a.isWritable
  rw [(compile_eq_ok_iff.1 h).2]
  exact hcount

theorem accountKeys_eq : m.accountKeys = (entries instructions feePayer).map (·.address) := by
  rw [(compile_eq_ok_iff.1 h).2]

theorem getElem?_accountKeys (hkey : m.accountKeys[i]? = some key) :
    (entries instructions feePayer)[i]? =
      some (rights (occurrences instructions feePayer) key) := by
  rw [accountKeys_eq h, List.getElem?_map, Option.map_eq_some_iff] at hkey
  obtain ⟨e, he, haddress⟩ := hkey
  rw [he, ← haddress, ← eq_rights_of_mem_entries (List.mem_of_getElem? he)]

theorem nodup_accountKeys : m.accountKeys.Nodup := by
  rw [accountKeys_eq h, map_address_entries_perm.nodup_iff]
  exact nodup_eraseDups _

theorem mem_accountKeys_iff : key ∈ m.accountKeys ↔ key ∈ mentions instructions feePayer := by
  rw [accountKeys_eq h, map_address_entries_perm.mem_iff, List.mem_eraseDups]

theorem getElem?_zero_accountKeys : m.accountKeys[0]? = some feePayer := by
  rw [accountKeys_eq h, ← List.head?_eq_getElem?, List.head?_map, head?_entries]
  rfl

theorem readonlySigned_lt : m.readonlySigned.toNat < m.requiredSignatures.toNat := by
  rw [readonlySigned_toNat h, requiredSignatures_toNat h]
  obtain ⟨rest, hrest⟩ := List.head?_eq_some_iff.1 (head?_entries instructions feePayer)
  have hle : rest.countP (fun a ↦ a.isSigner && !a.isWritable) ≤ rest.countP (·.isSigner) :=
    List.countP_mono_left fun a _ ha ↦ (Bool.and_eq_true_iff.1 ha).1
  rw [hrest, List.countP_cons, List.countP_cons]
  exact Nat.lt_succ_of_le hle

theorem requiredSignatures_add_le :
    m.requiredSignatures.toNat + m.readonlyUnsigned.toNat ≤ m.accountKeys.length := by
  rw [requiredSignatures_toNat h, readonlyUnsigned_toNat h, accountKeys_eq h, List.length_map]
  have hle : (entries instructions feePayer).countP (fun a ↦ !a.isSigner && !a.isWritable) ≤
      (entries instructions feePayer).countP fun a ↦ !a.isSigner :=
    List.countP_mono_left fun a _ ha ↦ (Bool.and_eq_true_iff.1 ha).1
  have hsum := List.length_eq_countP_add_countP (·.isSigner) (l := entries instructions feePayer)
  simp only [Bool.not_eq_true, Bool.decide_eq_false] at hsum
  omega

theorem length_signerKeys : m.signerKeys.length = m.requiredSignatures.toNat := by
  have hle := requiredSignatures_add_le h
  rw [signerKeys, List.length_take]
  omega

theorem isSignerAt_iff (hkey : m.accountKeys[i]? = some key) :
    m.IsSignerAt i ↔ Grants (·.isSigner) instructions feePayer key := by
  have hclass := (class_of_arrange (getElem?_accountKeys h hkey)).1
  rw [IsSignerAt, requiredSignatures_toNat h, ← rights_isSigner_iff]
  exact hclass

theorem nodup_signerKeys : m.signerKeys.Nodup := (List.take_sublist _ _).nodup (nodup_accountKeys h)

theorem head?_signerKeys : m.signerKeys.head? = some feePayer := by
  have hlt := readonlySigned_lt h
  rw [signerKeys, List.head?_take, if_neg (by omega), List.head?_eq_getElem?,
    getElem?_zero_accountKeys h]

theorem mem_signerKeys_iff :
    key ∈ m.signerKeys ↔ Grants (·.isSigner) instructions feePayer key := by
  rw [List.mem_iff_getElem?]
  constructor
  · intro hmem
    obtain ⟨i, hi⟩ := hmem
    obtain ⟨hsigner, hkey⟩ := getElem?_signerKeys_iff.1 hi
    exact (isSignerAt_iff h hkey).1 hsigner
  · intro hgrants
    obtain ⟨i, hkey⟩ := List.mem_iff_getElem?.1 ((mem_accountKeys_iff h).2 hgrants.mem_mentions)
    exact ⟨i, getElem?_signerKeys_iff.2 ⟨(isSignerAt_iff h hkey).2 hgrants, hkey⟩⟩

theorem signerKeys_eq {others : List Address} (hlength : others.length ≤ 1)
    (hgrants : ∀ key, Grants (·.isSigner) instructions feePayer key ↔ key ∈ feePayer :: others) :
    m.signerKeys = (feePayer :: others).eraseDups := by
  obtain ⟨rest, hrest⟩ := List.head?_eq_some_iff.1 (head?_signerKeys h)
  have hperm : m.signerKeys.Perm (feePayer :: others).eraseDups :=
    (List.perm_ext_iff_of_nodup (nodup_signerKeys h) (nodup_eraseDups _)).2 fun key ↦ by
      rw [mem_signerKeys_iff h, hgrants, List.mem_eraseDups]
  rw [hrest, List.eraseDups_cons] at hperm ⊢
  have hrest := hperm.cons_inv
  rcases others with _ | ⟨other, _ | _⟩
  · rw [hrest.eq_nil]
    rfl
  · by_cases hother : other = feePayer
    all_goals simpa [hother, List.eraseDups_cons] using hrest
  · simp at hlength

theorem isReadonlyAt_iff (hkey : m.accountKeys[i]? = some key) :
    m.IsReadonlyAt i ↔ ¬ Grants (·.isWritable) instructions feePayer key := by
  have hclass := (class_of_arrange (getElem?_accountKeys h hkey)).2
  rw [IsReadonlyAt, requiredSignatures_toNat h, readonlySigned_toNat h, readonlyUnsigned_toNat h,
    accountKeys_eq h, List.length_map, ← rights_isWritable_iff, Bool.not_eq_true]
  exact hclass

theorem idxOf_lt_of_lt {i j : Nat} {k l : Address} (hk : m.accountKeys[i]? = some k)
    (hl : m.accountKeys[j]? = some l) (hs : m.IsSignerAt i ↔ m.IsSignerAt j)
    (hr : m.IsReadonlyAt i ↔ m.IsReadonlyAt j) (hij : i < j) :
    (mentions instructions feePayer).idxOf k < (mentions instructions feePayer).idxOf l := by
  obtain ⟨hi, hik⟩ := List.getElem?_eq_some_iff.1 (getElem?_accountKeys h hk)
  obtain ⟨hj, hjl⟩ := List.getElem?_eq_some_iff.1 (getElem?_accountKeys h hl)
  have hsigner : Grants (·.isSigner) instructions feePayer k ↔
      Grants (·.isSigner) instructions feePayer l := by
    rw [← isSignerAt_iff h hk, hs, isSignerAt_iff h hl]
  have hwritable : ¬ Grants (·.isWritable) instructions feePayer k ↔
      ¬ Grants (·.isWritable) instructions feePayer l := by
    rw [← isReadonlyAt_iff h hk, hr, isReadonlyAt_iff h hl]
  have horder := List.pairwise_iff_getElem.1 (pairwise_entries instructions feePayer) i j hi hj hij
  rw [hik, hjl] at horder
  exact horder (Bool.eq_iff_iff.2 (by rwa [rights_isSigner_iff, rights_isSigner_iff]))
    (Bool.eq_iff_iff.2 (by rwa [rights_isWritable_iff, rights_isWritable_iff, ← not_iff_not]))

theorem places_compileInstruction {i : Instruction} (hi : i ∈ instructions) :
    m.Places i (compileInstruction m.accountKeys i) := by
  have hplace (k : Address) (hk : k ∈ mentions instructions feePayer) :
      m.accountKeys[(UInt8.ofNat (m.accountKeys.idxOf k)).toNat]? = some k := by
    have hmem := (mem_accountKeys_iff h).2 hk
    have hlt := List.idxOf_lt_length_of_mem hmem
    have hle := length_accountKeys_le h
    rw [UInt8.toNat_ofNat_of_lt' (Nat.lt_of_lt_of_le hlt (Nat.le_trans hle (by decide)))]
    exact List.getElem?_idxOf hmem
  constructor
  case data => rfl
  case program =>
    refine hplace _ (List.mem_cons_of_mem _ (List.mem_flatMap.2 ⟨i, hi, ?_⟩))
    exact List.mem_append_right _ (List.mem_singleton.2 rfl)
  case accounts =>
    rw [compileInstruction, List.forall₂_map_right_iff, List.forall₂_same]
    intro a ha
    refine hplace _ (List.mem_cons_of_mem _ (List.mem_flatMap.2 ⟨i, hi, ?_⟩))
    exact List.mem_append_left _ (List.mem_map_of_mem ha)

theorem instructions_eq : m.instructions = instructions.map (compileInstruction m.accountKeys) := by
  rw [(compile_eq_ok_iff.1 h).2]

end Compiled

theorem head?_of_serialize {bytes : Bytes} (h : m.serialize = .ok bytes) :
    bytes.head? = some m.requiredSignatures := by
  rw [serialize, Except.mapError_eq_ok_iff] at h
  obtain ⟨keys, -, h⟩ := Except.bind_eq_ok_iff.1 h
  obtain ⟨count, -, h⟩ := Except.bind_eq_ok_iff.1 h
  obtain ⟨parts, -, h⟩ := Except.bind_eq_ok_iff.1 h
  cases h
  rfl

/-- A compiled message represents what it was compiled from. -/
theorem compile_represents (h : compile instructions feePayer blockhash = .ok m) :
    m.Represents instructions feePayer ∧ m.blockhash = blockhash := by
  constructor
  · exact {
      nodup := nodup_accountKeys h
      mem_iff := fun _ ↦ mem_accountKeys_iff h
      payer := getElem?_zero_accountKeys h
      readonlySigned_lt := readonlySigned_lt h
      readonlyUnsigned_le := requiredSignatures_add_le h
      isSigner_iff := fun _ _ ↦ isSignerAt_iff h
      isReadonly_iff := fun _ _ ↦ isReadonlyAt_iff h
      ordered := fun _ _ _ _ ↦ idxOf_lt_of_lt h
      instructions := by
        rw [instructions_eq h, List.forall₂_map_right_iff, List.forall₂_same]
        exact fun _ ↦ places_compileInstruction h }
  · rw [(compile_eq_ok_iff.1 h).2]

theorem compile_represents_two :
    let feePayer : Address := ⟨.replicate 32 1⟩
    let wallet : Address := ⟨.replicate 32 2⟩
    let program : Address := ⟨.replicate 32 3⟩
    let callee : Address := ⟨.replicate 32 4⟩
    let instructions : List Instruction :=
      [⟨program, [.readonly feePayer, .writable callee, .readonlySigner wallet], [7]⟩,
        ⟨callee, [.writable wallet], []⟩]
    let m : Message := ⟨2, 0, 1, [feePayer, wallet, callee, program], .replicate 32 0,
      [⟨3, [0, 2, 1], [7]⟩, ⟨2, [1], []⟩]⟩
    compile instructions feePayer (.replicate 32 0) = .ok m ∧
        m.Represents instructions feePayer := by
  intro feePayer wallet program callee instructions m
  have h : compile instructions feePayer (.replicate 32 0) = .ok m := by decide +kernel
  exact ⟨h, (compile_represents h).1⟩

end Message

end ValidatorClient.Ledger
