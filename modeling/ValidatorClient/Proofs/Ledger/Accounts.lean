import Mathlib.Data.List.Basic
import Mathlib.Data.List.Induction
import Mathlib.Data.List.Nodup
import ValidatorClient.Ledger.Message
import ValidatorClient.Proofs.Occurrence

namespace ValidatorClient.Ledger.Message

def rights (metas : List AccountMeta) (key : Address) : AccountMeta where
  address := key
  isSigner := metas.any fun a ↦ a.address == key && a.isSigner
  isWritable := metas.any fun a ↦ a.address == key && a.isWritable

variable {metas entries : List AccountMeta} {a e : AccountMeta} {keys : List Address}
  {key : Address}

@[simp] theorem rights_address : (rights metas key).address = key := rfl

theorem rights_concat_of_ne (h : a.address ≠ key) :
    rights (metas ++ [a]) key = rights metas key := by
  simp [rights, h]

theorem rights_concat_self :
    rights (metas ++ [a]) a.address =
      ⟨a.address, (rights metas a.address).isSigner || a.isSigner,
        (rights metas a.address).isWritable || a.isWritable⟩ := by
  simp [rights]

theorem rights_of_notMem (h : key ∉ metas.map (·.address)) : rights metas key = .readonly key := by
  have hne (b : AccountMeta) (hb : b ∈ metas) : b.address ≠ key := fun hk ↦
    h (List.mem_map.2 ⟨b, hb, hk⟩)
  have hs : (rights metas key).isSigner = false :=
    List.any_eq_false.2 fun b hb ↦ by simp [hne b hb]
  have hw : (rights metas key).isWritable = false :=
    List.any_eq_false.2 fun b hb ↦ by simp [hne b hb]
  calc rights metas key
      = ⟨key, (rights metas key).isSigner, (rights metas key).isWritable⟩ := rfl
    _ = .readonly key := by rw [hs, hw, AccountMeta.readonly]

theorem merge_of_mem (hkeys : keys.Nodup) (ha : a.address ∈ keys) :
    merge a (keys.map (rights metas)) = keys.map (rights (metas ++ [a])) := by
  induction keys with
  | nil => simp at ha
  | cons key keys ih =>
    obtain ⟨hkey, hkeys⟩ := List.nodup_cons.1 hkeys
    rw [List.map_cons, merge, rights_address]
    by_cases h : key = a.address
    · have hrest (k : Address) (hk : k ∈ keys) : rights metas k = rights (metas ++ [a]) k := by
        refine (rights_concat_of_ne fun hak ↦ hkey ?_).symm
        rwa [h, hak]
      rw [if_pos h, List.map_cons, List.map_congr_left hrest, h, rights_concat_self]
    · have hmem : a.address ∈ keys := (List.mem_cons.1 ha).resolve_left (Ne.symm h)
      rw [if_neg h, ih hkeys hmem, List.map_cons, rights_concat_of_ne (Ne.symm h)]

theorem merge_of_notMem (ha : a.address ∉ entries.map (·.address)) :
    merge a entries = entries ++ [a] := by
  induction entries with
  | nil => rfl
  | cons b entries ih =>
    rw [List.map_cons, List.mem_cons, not_or] at ha
    obtain ⟨hb, hrest⟩ := ha
    rw [merge, if_neg (Ne.symm hb), ih hrest, List.cons_append]

theorem collect_concat : collect (metas ++ [a]) = merge a (collect metas) := by
  rw [collect, List.foldl_append]
  rfl

/-- By induction from the end: one more occurrence adds its rights to those of the occurrences
before. -/
theorem collect_eq (metas : List AccountMeta) :
    collect metas = (metas.map (·.address)).eraseDups.map (rights metas) := by
  induction metas using List.reverseRecOn with
  | nil => rfl
  | append_singleton metas a ih =>
    rw [collect_concat, ih, List.map_append, List.map_singleton, eraseDups_concat]
    by_cases h : a.address ∈ metas.map (·.address)
    · rw [if_pos h, merge_of_mem (nodup_eraseDups _) (List.mem_eraseDups.2 h)]
    · have hold (k : Address) (hk : k ∈ (metas.map (·.address)).eraseDups) :
          rights metas k = rights (metas ++ [a]) k := by
        refine (rights_concat_of_ne fun hak ↦ h ?_).symm
        rw [hak]
        exact List.mem_eraseDups.1 hk
      have hnew : rights (metas ++ [a]) a.address = a := by
        simp [rights_concat_self, rights_of_notMem h, AccountMeta.readonly]
      have hmerge : a.address ∉
          ((metas.map (·.address)).eraseDups.map (rights metas)).map (·.address) := by
        simpa [rights, Function.comp_def, List.mem_eraseDups] using h
      rw [if_neg h, merge_of_notMem hmerge, List.map_append, List.map_singleton, hnew,
        List.map_congr_left hold]

theorem filter_and_append_perm (p q : AccountMeta → Bool) (entries : List AccountMeta) :
    (entries.filter (fun a ↦ p a && q a) ++ entries.filter (fun a ↦ p a && !q a)).Perm
      (entries.filter p) := by
  have h := List.filter_append_perm q (entries.filter p)
  simpa only [List.filter_filter, Bool.and_comm] using h

theorem arrange_perm (entries : List AccountMeta) : (arrange entries).Perm entries := by
  have hsigners := filter_and_append_perm (·.isSigner) (·.isWritable) entries
  have hothers := filter_and_append_perm (fun a ↦ !a.isSigner) (·.isWritable) entries
  rw [arrange, List.append_assoc (_ ++ _)]
  exact (hsigners.append hothers).trans (List.filter_append_perm (·.isSigner) entries)

theorem pairwise_arrange {r : AccountMeta → AccountMeta → Prop} (h : entries.Pairwise r) :
    (arrange entries).Pairwise fun a b ↦
      a.isSigner = b.isSigner → a.isWritable = b.isWritable → r a b := by
  have hclass (p : AccountMeta → Bool) : (entries.filter p).Pairwise fun a b ↦
      a.isSigner = b.isSigner → a.isWritable = b.isWritable → r a b :=
    (h.filter p).imp fun hr _ _ ↦ hr
  simp only [arrange, List.pairwise_append, List.mem_append, List.mem_filter]
  refine ⟨⟨⟨hclass _, hclass _, ?_⟩, hclass _, ?_⟩, hclass _, ?_⟩
  all_goals
    intro a ha b hb hs hw
    rw [hs, hw] at ha
    simp_all

theorem getElem?_append_cases {α : Type} {l₁ l₂ : List α} {i : Nat} {a : α}
    (h : (l₁ ++ l₂)[i]? = some a) :
    l₁[i]? = some a ∨ l₁.length ≤ i ∧ a ∈ l₂ := by
  rw [List.getElem?_append] at h
  by_cases hi : i < l₁.length
  · rw [if_pos hi] at h
    exact .inl h
  · rw [if_neg hi] at h
    exact .inr ⟨Nat.le_of_not_lt hi, List.mem_of_getElem? h⟩

/-- What the three counts of a header say of the place of an account is what the account may do. -/
theorem class_of_arrange {i : Nat} (h : (arrange entries)[i]? = some e) :
    let signers := (arrange entries).countP (·.isSigner)
    let readonlySigners := (arrange entries).countP fun a ↦ a.isSigner && !a.isWritable
    let readonlyOthers := (arrange entries).countP fun a ↦ !a.isSigner && !a.isWritable
    (i < signers ↔ e.isSigner = true) ∧
      (i < signers ∧ signers ≤ i + readonlySigners ∨
        signers ≤ i ∧ (arrange entries).length ≤ i + readonlyOthers ↔ e.isWritable = false) := by
  intro signers readonlySigners readonlyOthers
  have hcount (p : AccountMeta → Bool) : (arrange entries).countP p = (entries.filter p).length :=
    ((arrange_perm entries).countP_eq p).trans List.countP_eq_length_filter
  have hs : signers = _ := hcount (·.isSigner)
  have hrs : readonlySigners = _ := hcount fun a ↦ a.isSigner && !a.isWritable
  have hro : readonlyOthers = _ := hcount fun a ↦ !a.isSigner && !a.isWritable
  have hsplit := (filter_and_append_perm (·.isSigner) (·.isWritable) entries).length_eq
  have hi := (List.getElem?_eq_some_iff.1 h).1
  simp only [arrange, List.length_append] at hi hsplit ⊢
  -- the four classes from the last one back
  rcases getElem?_append_cases h with h | ⟨hle, h⟩
  · have hlt := (List.getElem?_eq_some_iff.1 h).1
    simp only [List.length_append] at hlt
    rcases getElem?_append_cases h with h | ⟨hle, h⟩
    · have hlt := (List.getElem?_eq_some_iff.1 h).1
      simp only [List.length_append] at hlt
      rcases getElem?_append_cases h with h | ⟨hle, h⟩
      · have hlt := (List.getElem?_eq_some_iff.1 h).1
        have he : e.isSigner = true ∧ e.isWritable = true := by
          simpa using (List.mem_filter.1 (List.mem_of_getElem? h)).2
        exact ⟨iff_of_true (by omega) he.1, iff_of_false (by omega) (by simp [he])⟩
      · have he : e.isSigner = true ∧ e.isWritable = false := by simpa using (List.mem_filter.1 h).2
        exact ⟨iff_of_true (by omega) he.1, iff_of_true (by omega) he.2⟩
    · have he : e.isSigner = false ∧ e.isWritable = true := by simpa using (List.mem_filter.1 h).2
      simp only [List.length_append] at hle
      exact ⟨iff_of_false (by omega) (by simp [he]), iff_of_false (by omega) (by simp [he])⟩
  · have he : e.isSigner = false ∧ e.isWritable = false := by simpa using (List.mem_filter.1 h).2
    simp only [List.length_append] at hle
    exact ⟨iff_of_false (by omega) (by simp [he]), iff_of_true (by omega) he.2⟩

end ValidatorClient.Ledger.Message
