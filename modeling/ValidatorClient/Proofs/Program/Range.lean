import Mathlib.Data.List.Chain
import ValidatorClient.Program.Checked
import ValidatorClient.Proofs.Except

namespace ValidatorClient

namespace Program

/-- Thresholds that add up: each includes those before it, and the last one is the whole. -/
structure Cumulative (thresholds : List UInt16) : Prop where
  ne_nil : thresholds ≠ []
  le_of_le : ∀ (i j : Nat) a b, i ≤ j → thresholds[i]? = some a → thresholds[j]? = some b → a ≤ b
  le_total : ∀ a ∈ thresholds, a ≤ 10000
  last : thresholds.getLast? = some 10000

structure Setup.InRange (s : Setup) : Prop where
  logLevel : s.logLevel ≤ 5
  commission : s.commission ≤ 100
  maxPrimaryStake : 1000000000 ≤ s.maxPrimaryStake
  nftHolderShare : s.nftHolderShare ≤ 100
  initialRedemptionFee : s.initialRedemptionFee ≤ 25
  noRedemptionFee : s.isValidatorIdSwitchable = false → s.initialRedemptionFee = 0
  unitBacking : 1000000000 ≤ s.unitBacking
  redemptionFeeDuration : s.redemptionFeeDuration ≤ 63072000
  upgradeThreshold_ge : 65 ≤ s.upgradeThreshold
  upgradeThreshold_le : s.upgradeThreshold ≤ 100
  creatorRoyalties : s.creatorRoyalties ≤ 500
  rarities : Cumulative s.rarities
  rarityNames : s.rarityNames.length = s.rarities.length

def ConfigChange.InRange : ConfigChange → Prop
  | maxPrimaryStake lamports => 1000000000 ≤ lamports
  | nftHolderShare percent => percent ≤ 100
  | initialRedemptionFee percent => percent ≤ 25
  | redemptionFeeDuration seconds => seconds ≤ 63072000
  | validatorName _ | twitterHandle _ | discordInvite _ => True

def VoteAccountChange.InRange : VoteAccountChange → Prop
  | validatorId _ => True
  | commission percent => percent ≤ 100

def Proposal.InRange : Proposal → Prop
  | config change => change.InRange
  | upgrade _ codeLink => codeLink ≠ ""
  | voteAccount change => change.InRange

theorem atMost_eq_ok_iff {name : String} {value limit : Nat} :
    atMost name value limit = .ok () ↔ value ≤ limit := by
  rw [atMost, ← Nat.not_lt]
  split <;> simp_all

theorem atLeast_eq_ok_iff {name : String} {value limit : Nat} :
    atLeast name value limit = .ok () ↔ limit ≤ value := by
  rw [atLeast, ← Nat.not_lt]
  split <;> simp_all

theorem checkLogLevel_eq_ok_iff {level : UInt8} : checkLogLevel level = .ok () ↔ level ≤ 5 := by
  rw [checkLogLevel, atMost_eq_ok_iff, UInt8.le_iff_toNat_le]
  rfl

section Rarities

variable {rarities : List UInt16} {names : List String}

theorem decreases_eq_false_iff : decreases rarities = false ↔ rarities.IsChain (· ≤ ·) := by
  fun_induction decreases rarities with
  | case1 a b rest ih => simp [ih]
  | case2 rarities h =>
    rcases rarities with _ | ⟨a, _ | ⟨b, rest⟩⟩
    · simp
    · simp
    · exact absurd rfl (h a b rest)

theorem isChain_iff_le_of_le : rarities.IsChain (· ≤ ·) ↔
    ∀ (i j : Nat) a b, i ≤ j → rarities[i]? = some a → rarities[j]? = some b → a ≤ b := by
  have htrans : IsTrans UInt16 (· ≤ ·) := ⟨fun _ _ _ ↦ UInt16.le_trans⟩
  rw [List.isChain_iff_pairwise, List.pairwise_iff_getElem]
  constructor
  · intro h i j a b hij ha hb
    obtain ⟨hi, rfl⟩ := List.getElem?_eq_some_iff.1 ha
    obtain ⟨hj, rfl⟩ := List.getElem?_eq_some_iff.1 hb
    rcases Nat.lt_or_eq_of_le hij with hlt | heq
    · exact h i j hi hj hlt
    · subst heq
      exact UInt16.le_refl _
  · intro h i j hi hj hij
    exact h i j _ _ (Nat.le_of_lt hij) (List.getElem?_eq_getElem hi) (List.getElem?_eq_getElem hj)

theorem getLast?_map_toNat_iff :
    rarities.getLast?.map (·.toNat) = some rarityTotal ↔ rarities.getLast? = some 10000 := by
  cases rarities.getLast? with
  | none => simp
  | some last =>
    rw [Option.map_some, Option.some_inj, Option.some_inj, ← UInt16.toNat_inj]
    rfl

theorem Cumulative.of_isChain (hchain : rarities.IsChain (· ≤ ·))
    (hlast : rarities.getLast? = some 10000) :
    Cumulative rarities where
  ne_nil := by
    intro hnil
    rw [hnil] at hlast
    cases hlast
  le_of_le := isChain_iff_le_of_le.1 hchain
  le_total := by
    intro a ha
    obtain ⟨i, hi⟩ := List.mem_iff_getElem?.1 ha
    rw [List.getLast?_eq_getElem?] at hlast
    have hlt := (List.getElem?_eq_some_iff.1 hi).1
    exact isChain_iff_le_of_le.1 hchain i _ a _ (by omega) hi hlast
  last := hlast

theorem checkRarities_eq_ok_iff : checkRarities rarities names = .ok () ↔
    Cumulative rarities ∧ names.length = rarities.length := by
  unfold checkRarities
  split
  · rename_i hnil
    have h : ¬ Cumulative rarities := fun h ↦ h.ne_nil (List.isEmpty_iff.1 hnil)
    simp [h]
  split
  · rename_i hlength
    simp [Ne.symm hlength]
  split
  · rename_i hdecreases
    have h : ¬ Cumulative rarities := by
      intro h
      rw [decreases_eq_false_iff.2 (isChain_iff_le_of_le.2 h.le_of_le)] at hdecreases
      cases hdecreases
    simp [h]
  split
  · rename_i hlast
    have h : ¬ Cumulative rarities := fun h ↦ hlast (getLast?_map_toNat_iff.2 h.last)
    simp [h]
  · rename_i hlength hdecreases hlast
    have hchain := decreases_eq_false_iff.1 (Bool.eq_false_iff.2 hdecreases)
    have h := Cumulative.of_isChain hchain (getLast?_map_toNat_iff.1 (not_not.1 hlast))
    simp [h, not_not.1 hlength]

end Rarities

theorem Setup.check_eq_ok_iff {s : Setup} : s.check = .ok () ↔ s.InRange := by
  simp only [check, Except.then_eq_ok_iff, Except.throw_if_eq_ok_iff, checkLogLevel_eq_ok_iff,
    atMost_eq_ok_iff, atLeast_eq_ok_iff, checkRarities_eq_ok_iff]
  constructor
  · intro h
    obtain ⟨hlevel, hcommission, hstake, hshare, hfee, hswitch, hbacking, hduration, hmin, hmax,
      hroyalties, hrarities, hnames⟩ := h
    exact {
      logLevel := hlevel
      commission := UInt8.le_iff_toNat_le.2 hcommission
      maxPrimaryStake := UInt64.le_iff_toNat_le.2 hstake
      nftHolderShare := UInt8.le_iff_toNat_le.2 hshare
      initialRedemptionFee := UInt8.le_iff_toNat_le.2 hfee
      noRedemptionFee := by
        intro hfixed
        simpa [hfixed] using hswitch
      unitBacking := UInt64.le_iff_toNat_le.2 hbacking
      redemptionFeeDuration := UInt32.le_iff_toNat_le.2 hduration
      upgradeThreshold_ge := UInt8.le_iff_toNat_le.2 hmin
      upgradeThreshold_le := UInt8.le_iff_toNat_le.2 hmax
      creatorRoyalties := UInt16.le_iff_toNat_le.2 hroyalties
      rarities := hrarities
      rarityNames := hnames }
  · intro h
    refine ⟨h.logLevel, UInt8.le_iff_toNat_le.1 h.commission,
      UInt64.le_iff_toNat_le.1 h.maxPrimaryStake, UInt8.le_iff_toNat_le.1 h.nftHolderShare,
      UInt8.le_iff_toNat_le.1 h.initialRedemptionFee, ?_, UInt64.le_iff_toNat_le.1 h.unitBacking,
      UInt32.le_iff_toNat_le.1 h.redemptionFeeDuration,
      UInt8.le_iff_toNat_le.1 h.upgradeThreshold_ge, UInt8.le_iff_toNat_le.1 h.upgradeThreshold_le,
      UInt16.le_iff_toNat_le.1 h.creatorRoyalties, h.rarities, h.rarityNames⟩
    cases hswitch : s.isValidatorIdSwitchable with
    | false => simp [h.noRedemptionFee hswitch]
    | true => simp

theorem ConfigChange.check_eq_ok_iff {change : ConfigChange} :
    change.check = .ok () ↔ change.InRange := by
  cases change with
  | maxPrimaryStake =>
    rw [check, atLeast_eq_ok_iff, InRange, UInt64.le_iff_toNat_le]
    rfl
  | nftHolderShare | initialRedemptionFee =>
    rw [check, atMost_eq_ok_iff, InRange, UInt8.le_iff_toNat_le]
    rfl
  | redemptionFeeDuration =>
    rw [check, atMost_eq_ok_iff, InRange, UInt32.le_iff_toNat_le]
    rfl
  | validatorName | twitterHandle | discordInvite => exact iff_of_true rfl trivial

theorem Proposal.check_eq_ok_iff {proposal : Proposal} :
    proposal.check = .ok () ↔ proposal.InRange := by
  cases proposal with
  | config => exact ConfigChange.check_eq_ok_iff
  | upgrade _ codeLink =>
    by_cases h : codeLink = ""
    · simp [check, InRange, h]
    · simp [check, InRange, h]
  | voteAccount change =>
    cases change with
    | validatorId => exact iff_of_true rfl trivial
    | commission =>
      rw [check, atMost_eq_ok_iff, InRange, VoteAccountChange.InRange, UInt8.le_iff_toNat_le]
      rfl

end Program

end ValidatorClient
