import Mathlib.Data.List.DropRight
import ValidatorClient.Proofs.Text.Letters
import ValidatorClient.Settings.Cluster

namespace ValidatorClient.Cluster

open Text

variable {c : Cluster} {text name : String}

def names : Cluster → List String
  | devnet => ["devnet"]
  | testnet => ["testnet"]
  | mainnet => ["mainnet", "mainnet-beta"]

/-- A name of the cluster, with each of its letters as it is or as a capital. -/
def IsNamed (c : Cluster) (text : String) : Prop :=
  ∃ name ∈ c.names, List.Forall₂ (fun a b ↦ a = b ∨ a = b.toUpper) text.toList name.toList

/-- The address of the cluster, with any number of slashes after it. -/
def IsAt (c : Cluster) (text : String) : Prop := ∃ n, text = c.url.pushn '/' n

theorem map_toLower_eq_iff {as bs : List Char} (h : ∀ b ∈ bs, b.toNat < 65 ∨ 90 < b.toNat) :
    as.map Char.toLower = bs ↔ List.Forall₂ (fun a b ↦ a = b ∨ a = b.toUpper) as bs := by
  induction bs generalizing as with
  | nil => rw [List.map_eq_nil_iff, List.forall₂_nil_right_iff]
  | cons b bs ih =>
    obtain ⟨hb, hbs⟩ := List.forall_mem_cons.1 h
    rw [List.map_eq_cons_iff, List.forall₂_cons_right_iff]
    constructor
    · intro h
      obtain ⟨a, as, rfl, ha, has⟩ := h
      exact ⟨a, as, (Utf8.toLower_eq_iff hb).1 ha, (ih hbs).1 has, rfl⟩
    · intro h
      obtain ⟨a, as, ha, has, rfl⟩ := h
      exact ⟨a, as, rfl, (Utf8.toLower_eq_iff hb).2 ha, (ih hbs).2 has⟩

theorem isNamed_iff : c.IsNamed text ↔ String.ofList (text.toList.map Char.toLower) ∈ c.names := by
  have hsmall :
      (c.names.all fun name ↦ name.toList.all fun b ↦ b.toNat < 65 ∨ 90 < b.toNat) = true := by
    cases c <;> rfl
  have hname (name : String) (hmem : name ∈ c.names) :
      List.Forall₂ (fun a b ↦ a = b ∨ a = b.toUpper) text.toList name.toList ↔
        String.ofList (text.toList.map Char.toLower) = name := by
    have hletters := List.all_eq_true.1 (List.all_eq_true.1 hsmall name hmem)
    rw [← map_toLower_eq_iff fun b hb ↦ of_decide_eq_true (hletters b hb), ← String.toList_inj,
      String.toList_ofList]
  constructor
  · intro h
    obtain ⟨name, hmem, hspelled⟩ := h
    rwa [(hname name hmem).1 hspelled]
  · exact fun h ↦ ⟨_, h, (hname _ h).2 rfl⟩

theorem parse_eq_ok_iff : parse text = .ok c ↔ c.IsNamed text := by
  rw [isNamed_iff, parse]
  generalize String.ofList (text.toList.map Char.toLower) = lower
  split_ifs with hdevnet htestnet hmainnet
  · subst hdevnet
    cases c <;> simp [names]
  · subst htestnet
    cases c <;> simp [names]
  · rcases hmainnet with rfl | rfl <;> cases c <;> simp [names]
  · cases c <;> simp [names, hdevnet, htestnet, not_or.1 hmainnet]

theorem toList_pushn (s : String) (a : Char) (n : Nat) :
    (s.pushn a n).toList = s.toList ++ List.replicate n a := by
  rw [String.pushn_eq_repeat_push]
  induction n with
  | zero => exact (List.append_nil _).symm
  | succ n ih => rw [Nat.repeat, String.toList_push, ih, List.append_assoc, ← List.replicate_succ']

theorem rdropWhile_slashes_iff {as bs : List Char} (h : ∀ hbs : bs ≠ [], bs.getLast hbs ≠ '/') :
    as.rdropWhile (· = '/') = bs ↔ ∃ n, as = bs ++ List.replicate n '/' := by
  constructor
  · rintro rfl
    have hslashes :
        as.reverse.takeWhile (· = '/') =
          List.replicate (as.reverse.takeWhile (· = '/')).length '/' := by
      refine List.eq_replicate_of_mem fun a ha ↦ ?_
      have hslash := List.mem_takeWhile_imp ha
      simpa using hslash
    have hreverse := List.takeWhile_append_dropWhile (p := (· = '/')) (l := as.reverse)
    refine ⟨(as.reverse.takeWhile (· = '/')).length, ?_⟩
    rw [← List.reverse_replicate, ← hslashes, List.rdropWhile, ← List.reverse_append, hreverse,
      List.reverse_reverse]
  · rintro ⟨n, rfl⟩
    induction n with
    | zero =>
      rw [List.replicate_zero, List.append_nil, List.rdropWhile_eq_self_iff]
      exact fun hbs ↦ by simpa using h hbs
    | succ n ih =>
      rw [List.replicate_succ', ← List.append_assoc, List.rdropWhile_concat_pos _ _ _ (by simp), ih]

theorem isAt_iff : c.IsAt text ↔ text.toList.rdropWhile (· = '/') = c.url.toList := by
  have hurl : ∀ hc : c.url.toList ≠ [], c.url.toList.getLast hc ≠ '/' := by
    cases c <;> decide +kernel
  rw [rdropWhile_slashes_iff hurl]
  exact exists_congr fun n ↦ by rw [← String.toList_inj, toList_pushn]

theorem ofUrl?_eq_some_iff : ofUrl? text = some c ↔ c.IsAt text := by
  rw [isAt_iff, ← String.toList_ofList (l := text.toList.rdropWhile (· = '/')), String.toList_inj]
  change [devnet, testnet, mainnet].find?
    (·.url = String.ofList (text.toList.rdropWhile (· = '/'))) = some c ↔ _
  generalize String.ofList (text.toList.rdropWhile (· = '/')) = trimmed
  constructor
  · intro h
    have hfound := List.find?_some h
    exact (of_decide_eq_true hfound).symm
  · rintro rfl
    cases c <;> decide +kernel

theorem isAt_url (c : Cluster) : c.IsAt c.url := ⟨0, rfl⟩

theorem url_ne_empty (c : Cluster) : c.url ≠ "" := by
  cases c <;> decide

theorem not_isNamed_url (c d : Cluster) : ¬ c.IsNamed d.url := by
  rw [isNamed_iff]
  cases c <;> cases d <;> decide

theorem not_isNamed_empty (c : Cluster) : ¬ c.IsNamed "" := by
  rw [isNamed_iff]
  cases c <;> decide

end ValidatorClient.Cluster
