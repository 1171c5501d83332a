import ValidatorClient.Proofs.Codec.Exact
import ValidatorClient.Proofs.Program.Request

namespace ValidatorClient

open Codec Ledger

namespace Program

inductive ProposalKind.Takes : ProposalKind → Option ConfigChange → Option VoteAccountChange → Prop
  | config {change : ConfigChange} (h : change.InRange) : Takes .config (some change) none
  | upgrade {buffer : Address} {codeLink : String} (h : codeLink ≠ "") :
      Takes (.upgrade buffer codeLink) none none
  | voteAccount {change : VoteAccountChange} (h : change.InRange) :
      Takes .voteAccount none (some change)

def ProposalKind.encodeFields : ProposalKind → Except Codec.Error Bytes
  | config | voteAccount => return []
  | upgrade buffer codeLink =>
    do return (← Address.layout.encode buffer) ++ (← Layout.string.encode codeLink)

def encodeChange : Option ConfigChange → Option VoteAccountChange → Except Codec.Error Bytes
  | some change, _ => ConfigChange.layout.encode change
  | none, some change => VoteAccountChange.layout.encode change
  | none, none => return []

def ConfigChange.applyTo (s : Setup) : ConfigChange → Setup
  | maxPrimaryStake lamports => { s with maxPrimaryStake := lamports }
  | nftHolderShare percent => { s with nftHolderShare := percent }
  | initialRedemptionFee percent => { s with initialRedemptionFee := percent }
  | redemptionFeeDuration seconds => { s with redemptionFeeDuration := seconds }
  | validatorName name => { s with validatorName := name }
  | twitterHandle handle => { s with twitterHandle := handle }
  | discordInvite invite => { s with discordInvite := invite }

namespace Proposal

def config? : Proposal → Option ConfigChange
  | config change => some change
  | _ => none

def voteAccount? : Proposal → Option VoteAccountChange
  | voteAccount change => some change
  | _ => none

variable {kind : ProposalKind} {configChange : Option ConfigChange}
  {voteAccountChange : Option VoteAccountChange} {proposal : Proposal}

theorem make_eq_ok_iff : make kind configChange voteAccountChange = .ok proposal ↔
    (proposal.kind = kind ∧ proposal.config? = configChange ∧
      proposal.voteAccount? = voteAccountChange) ∧
      proposal.InRange := by
  rw [← check_eq_ok_iff]
  constructor
  · intro h
    unfold make at h
    split at h
    case h_4 => cases h
    all_goals
      obtain ⟨hcheck, hp⟩ := Except.then_eq_ok_iff.1 h
      cases hp
      exact ⟨⟨rfl, rfl, rfl⟩, hcheck⟩
  · intro h
    obtain ⟨⟨hkind, hconfig, hvoteAccount⟩, hcheck⟩ := h
    rw [← hkind, ← hconfig, ← hvoteAccount]
    cases proposal
    all_goals exact Except.then_eq_ok_iff.2 ⟨hcheck, rfl⟩

theorem takes_parts_iff :
    proposal.kind.Takes proposal.config? proposal.voteAccount? ↔ proposal.InRange := by
  constructor
  · intro h
    cases proposal
    all_goals
      cases h
      assumption
  · intro h
    cases proposal with
    | config => exact .config h
    | upgrade => exact .upgrade h
    | voteAccount => exact .voteAccount h

theorem exists_make_eq_ok_iff : (∃ p, make kind configChange voteAccountChange = .ok p) ↔
    kind.Takes configChange voteAccountChange := by
  simp only [make_eq_ok_iff]
  constructor
  · intro h
    obtain ⟨p, ⟨hkind, hconfig, hvoteAccount⟩, h⟩ := h
    rw [← hkind, ← hconfig, ← hvoteAccount]
    exact takes_parts_iff.2 h
  · intro h
    cases h with
    | config h => exact ⟨.config _, ⟨rfl, rfl, rfl⟩, h⟩
    | upgrade h => exact ⟨.upgrade _ _, ⟨rfl, rfl, rfl⟩, h⟩
    | voteAccount h => exact ⟨.voteAccount _, ⟨rfl, rfl, rfl⟩, h⟩

theorem encode_eq (proposal : Proposal) : layout.encode proposal = do
    return UInt8.ofNat proposal.kind.discriminant ::
      ((← proposal.kind.encodeFields) ++
        (← encodeChange proposal.config? proposal.voteAccount?)) := by
  rw [layout, Layout.encode_via, Layout.encode_union]
  cases proposal with
  | config | voteAccount => rfl
  | upgrade buffer codeLink =>
    change (do return 1 :: (← (Layout.pair Address.layout .string).encode (buffer, codeLink))) = _
    rw [Layout.encode_pair]
    simp only [kind, config?, voteAccount?, ProposalKind.encodeFields, encodeChange, bind_assoc,
      pure_bind, List.append_nil]
    rfl

theorem exists_openProposal_eq_ok_iff {level : UInt8} :
    (∃ i, Checked.openProposal proposal level = .ok i) ↔
      level ≤ 5 ∧ ∃ p, make proposal.kind proposal.config? proposal.voteAccount? = .ok p := by
  rw [exists_make_eq_ok_iff, takes_parts_iff]
  exact Request.exists_check_eq_ok_iff (.openProposal proposal level)

end Proposal

section Setup

variable {s : Setup} (h : s.InRange) (hswitchable : s.isValidatorIdSwitchable = true)
include h

include hswitchable in
theorem ConfigChange.inRange_applyTo_iff (change : ConfigChange) :
    (change.applyTo s).InRange ↔ change.InRange := by
  cases change with
  | maxPrimaryStake => exact ⟨fun h ↦ h.maxPrimaryStake, fun hc ↦ { h with maxPrimaryStake := hc }⟩
  | nftHolderShare => exact ⟨fun h ↦ h.nftHolderShare, fun hc ↦ { h with nftHolderShare := hc }⟩
  | redemptionFeeDuration =>
    exact ⟨fun h ↦ h.redemptionFeeDuration, fun hc ↦ { h with redemptionFeeDuration := hc }⟩
  | initialRedemptionFee =>
    refine ⟨fun h ↦ h.initialRedemptionFee, fun hc ↦ { h with
      initialRedemptionFee := hc
      noRedemptionFee := fun hfixed ↦ ?_ }⟩
    cases hswitchable.symm.trans hfixed
  | validatorName | twitterHandle | discordInvite => exact ⟨fun _ ↦ trivial, fun _ ↦ { h with }⟩

theorem VoteAccountChange.inRange_commission_iff (percent : UInt8) :
    { s with commission := percent }.InRange ↔ (VoteAccountChange.commission percent).InRange :=
  ⟨fun h ↦ h.commission, fun hc ↦ { h with commission := hc }⟩

end Setup

/-- A proposal can be made of a kind and just the change that it takes, in range. It keeps them and
is written with them, and every proposal that becomes an instruction can be made so. What a change
may set is what the field may hold from the start, where the validator's identity may change. -/
theorem Proposal.make_exact :
    (∀ kind config voteAccount,
      ((∃ p, make kind config voteAccount = .ok p) ↔ kind.Takes config voteAccount) ∧
      ∀ p, make kind config voteAccount = .ok p → p.kind = kind ∧
        layout.encode p = do
          return UInt8.ofNat kind.discriminant ::
            ((← kind.encodeFields) ++ (← encodeChange config voteAccount))) ∧
    (∀ (p : Proposal) level, (∃ i, Checked.openProposal p level = .ok i) ↔
      level ≤ 5 ∧ ∃ p', make p.kind p.config? p.voteAccount? = .ok p') ∧
    ∀ s : Setup, s.check = .ok () → s.isValidatorIdSwitchable = true →
      (∀ change : ConfigChange, change.InRange ↔ (change.applyTo s).check = .ok ()) ∧
      ∀ percent, (VoteAccountChange.commission percent).InRange ↔
        { s with commission := percent }.check = .ok () := by
  refine ⟨fun kind config voteAccount ↦ ⟨exists_make_eq_ok_iff, fun p hp ↦ ?_⟩,
    fun p level ↦ exists_openProposal_eq_ok_iff,
    fun s hs hswitchable ↦ ⟨fun change ↦ ?_, fun percent ↦ ?_⟩⟩
  · obtain ⟨⟨hkind, hconfig, hvoteAccount⟩, -⟩ := make_eq_ok_iff.1 hp
    refine ⟨hkind, ?_⟩
    rw [encode_eq, hkind, hconfig, hvoteAccount]
  · rw [Setup.check_eq_ok_iff] at hs ⊢
    exact (change.inRange_applyTo_iff hs hswitchable).symm
  · rw [Setup.check_eq_ok_iff] at hs ⊢
    exact (VoteAccountChange.inRange_commission_iff hs percent).symm

theorem Proposal.make_exact_initialRedemptionFee :
    let s : Setup :=
      ⟨0, 0, 1000000000, 0, 0, true, 1000000000, 0, 65, 0, [10000], [""], "", "", "", "", ""⟩
    s.check = .ok () ∧
      (∃ p, make .config (some (.initialRedemptionFee 25)) none = .ok p ∧
        layout.encode p = .ok [0, 2, 25] ∧
        ∃ i, Checked.openProposal p 5 = .ok i) ∧
      ∀ p, make .config (some (.initialRedemptionFee 26)) none ≠ .ok p := by
  intro s
  have hs : s.check = .ok () := by decide
  obtain ⟨hmake, hopen, hsetup⟩ := make_exact
  obtain ⟨hchange, -⟩ := hsetup s hs rfl
  refine ⟨hs, ?_, fun p hp ↦ ?_⟩
  · have hrange := (hchange (.initialRedemptionFee 25)).2 (by decide)
    obtain ⟨p, hp⟩ := (hmake _ _ _).1.2 (.config hrange)
    obtain rfl : .config (.initialRedemptionFee 25) = p := Except.ok.inj hp
    exact ⟨_, hp, ((hmake _ _ _).2 _ hp).2.trans (by decide), (hopen _ 5).2 ⟨by decide, _, hp⟩⟩
  · cases (hmake _ _ _).1.1 ⟨p, hp⟩ with
    | config hrange => exact absurd ((hchange (.initialRedemptionFee 26)).1 hrange) (by decide)

end Program

end ValidatorClient
