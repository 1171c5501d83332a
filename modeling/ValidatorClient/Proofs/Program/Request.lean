import ValidatorClient.Command
import ValidatorClient.Proofs.Program.Range

namespace ValidatorClient

namespace Program

/-- What is asked of the program. Nothing is known of it yet, and a count may be any number. -/
inductive Request where
  | mintGem (logLevel : UInt8)
  | setUp (setup : Setup)
  | redeemGem (logLevel : UInt8)
  | withdrawRewards (count : Nat) (logLevel : UInt8)
  | processRewards (logLevel : UInt8)
  | initRebalance (logLevel : UInt8)
  | finalizeRebalance (logLevel : UInt8)
  | uploadUris (uris : List String) (rarity : UInt8) (logLevel : UInt8)
  | resetUris (logLevel : UInt8)
  | undelegateGem (logLevel : UInt8)
  | delegateGem (logLevel : UInt8)
  | createVoteAccount (logLevel : UInt8)
  | openProposal (proposal : Proposal) (logLevel : UInt8)
  | vote (numeration : UInt32) (approve : Bool) (count : Nat) (logLevel : UInt8)
  | finalizeProposal (numeration : UInt32) (logLevel : UInt8)
  | executeProposal (numeration : UInt32) (logLevel : UInt8)
  deriving DecidableEq

namespace Request

def check : Request → Except ArgumentFault Instruction
  | mintGem level => Checked.mintGem level
  | setUp setup => Checked.setUp setup
  | redeemGem level => Checked.redeemGem level
  | withdrawRewards count level => Checked.withdrawRewards count level
  | processRewards level => Checked.processRewards level
  | initRebalance level => Checked.initRebalance level
  | finalizeRebalance level => Checked.finalizeRebalance level
  | uploadUris uris rarity level => Checked.uploadUris uris rarity level
  | resetUris level => Checked.resetUris level
  | undelegateGem level => Checked.undelegateGem level
  | delegateGem level => Checked.delegateGem level
  | createVoteAccount level => Checked.createVoteAccount level
  | openProposal proposal level => Checked.openProposal proposal level
  | vote numeration approve count level => Checked.vote numeration approve count level
  | finalizeProposal numeration level => Checked.finalizeProposal numeration level
  | executeProposal numeration level => Checked.executeProposal numeration level

def InRange : Request → Prop
  | setUp setup => setup.InRange
  | withdrawRewards count level => level ≤ 5 ∧ 1 ≤ count ∧ count ≤ 4294967295
  | uploadUris uris _ level => level ≤ 5 ∧ uris ≠ [] ∧ uris.length ≤ 4294967295
  | openProposal proposal level => level ≤ 5 ∧ proposal.InRange
  | vote _ _ count level => level ≤ 5 ∧ 1 ≤ count ∧ count ≤ 255
  | mintGem level | redeemGem level | processRewards level | initRebalance level |
      finalizeRebalance level
  | resetUris level | undelegateGem level | delegateGem level | createVoteAccount level
  | finalizeProposal _ level | executeProposal _ level => level ≤ 5

/-- The instruction that asks for it. A count has to fit its field. -/
def instruction : Request → Instruction
  | mintGem level => .mintGem level
  | setUp setup => .setUp setup
  | redeemGem level => .redeemGem level
  | withdrawRewards count level => .withdrawRewards (UInt32.ofNat count) level
  | processRewards level => .processRewards level
  | initRebalance level => .initRebalance level
  | finalizeRebalance level => .finalizeRebalance level
  | uploadUris uris rarity level => .uploadUris uris rarity level
  | resetUris level => .resetUris level
  | undelegateGem level => .undelegateGem level
  | delegateGem level => .delegateGem level
  | createVoteAccount level => .createVoteAccount level
  | openProposal proposal level => .openProposal proposal level
  | vote numeration approve count level => .vote numeration approve (UInt8.ofNat count) level
  | finalizeProposal numeration level => .finalizeProposal numeration level
  | executeProposal numeration level => .executeProposal numeration level

end Request

def Instruction.request : Instruction → Request
  | mintGem level => .mintGem level
  | setUp setup => .setUp setup
  | redeemGem level => .redeemGem level
  | withdrawRewards count level => .withdrawRewards count.toNat level
  | processRewards level => .processRewards level
  | initRebalance level => .initRebalance level
  | finalizeRebalance level => .finalizeRebalance level
  | uploadUris uris rarity level => .uploadUris uris rarity level
  | resetUris level => .resetUris level
  | undelegateGem level => .undelegateGem level
  | delegateGem level => .delegateGem level
  | createVoteAccount level => .createVoteAccount level
  | openProposal proposal level => .openProposal proposal level
  | vote numeration approve count level => .vote numeration approve count.toNat level
  | finalizeProposal numeration level => .finalizeProposal numeration level
  | executeProposal numeration level => .executeProposal numeration level

theorem Instruction.instruction_request (i : Instruction) : i.request.instruction = i := by
  cases i with
  | withdrawRewards | vote => simp [request, Request.instruction]
  | _ => rfl

theorem withLogLevel_eq_ok_iff {instruction : UInt8 → Instruction} {level : UInt8}
    {i : Instruction} :
    Checked.withLogLevel instruction level = .ok i ↔ level ≤ 5 ∧ instruction level = i := by
  rw [Checked.withLogLevel, Except.then_eq_ok_iff, checkLogLevel_eq_ok_iff]
  exact and_congr_right fun _ ↦ Except.pure_eq_ok_iff

namespace Request

variable {request : Request} {i : Instruction}

theorem InRange.request_instruction (h : request.InRange) :
    request.instruction.request = request := by
  cases request with
  | withdrawRewards count level =>
    obtain ⟨-, -, hle⟩ := h
    simp only [instruction, Instruction.request, UInt32.toNat_ofNat']
    rw [Nat.mod_eq_of_lt (by omega)]
  | vote numeration approve count level =>
    obtain ⟨-, -, hle⟩ := h
    simp only [instruction, Instruction.request, UInt8.toNat_ofNat']
    rw [Nat.mod_eq_of_lt (by omega)]
  | _ => rfl

theorem check_eq_ok_iff_instruction :
    request.check = .ok i ↔ request.InRange ∧ request.instruction = i := by
  cases request with
  | setUp setup =>
    rw [check, Checked.setUp, Except.then_eq_ok_iff, Setup.check_eq_ok_iff]
    exact and_congr_right fun _ ↦ Except.pure_eq_ok_iff
  | withdrawRewards count level =>
    simp only [check, Checked.withdrawRewards, Except.then_eq_ok_iff, Except.throw_if_eq_ok_iff,
      checkLogLevel_eq_ok_iff, InRange, and_assoc]
    exact and_congr_right fun _ ↦ and_congr (by omega) (and_congr (by omega) Except.pure_eq_ok_iff)
  | vote numeration approve count level =>
    simp only [check, Checked.vote, Except.then_eq_ok_iff, Except.throw_if_eq_ok_iff,
      checkLogLevel_eq_ok_iff, InRange, and_assoc]
    exact and_congr_right fun _ ↦ and_congr (by omega) (and_congr (by omega) Except.pure_eq_ok_iff)
  | uploadUris uris rarity level =>
    simp only [check, Checked.uploadUris, Except.then_eq_ok_iff, Except.throw_if_eq_ok_iff,
      checkLogLevel_eq_ok_iff, InRange, and_assoc, List.isEmpty_iff]
    exact and_congr_right fun _ ↦ and_congr_right fun _ ↦ and_congr (by omega) Except.pure_eq_ok_iff
  | openProposal proposal level =>
    simp only [check, Checked.openProposal, Except.then_eq_ok_iff, checkLogLevel_eq_ok_iff,
      Proposal.check_eq_ok_iff, InRange, and_assoc]
    exact and_congr_right fun _ ↦ and_congr_right fun _ ↦ Except.pure_eq_ok_iff
  | _ => exact withLogLevel_eq_ok_iff

theorem check_eq_ok_iff : request.check = .ok i ↔ request.InRange ∧ i.request = request := by
  rw [check_eq_ok_iff_instruction]
  refine and_congr_right fun h ↦ ?_
  constructor
  · intro hi
    rw [← hi, h.request_instruction]
  · intro hrequest
    rw [← hrequest, i.instruction_request]

theorem exists_check_eq_ok_iff (request : Request) :
    (∃ i, request.check = .ok i) ↔ request.InRange := by
  simp only [check_eq_ok_iff_instruction, exists_and_left, exists_eq', and_true]

/-- What is in range, and only that, becomes an instruction, and the instruction asks for nothing
else. What is not in range ends as an invalid argument. -/
theorem check_exact {σ : Type} (request : Request) (s : σ) :
    (∀ i, request.check = .ok i ↔ request.InRange ∧ i.request = request) ∧
    ((∃ i, request.check = .ok i) ↔ request.InRange) ∧
    ((∃ fault, (Command.checked request.check : Attempt σ Instruction) s =
      .done s (.error (.invalidArgument (.argument fault)))) ↔ ¬ request.InRange) := by
  refine ⟨fun _ ↦ check_eq_ok_iff, exists_check_eq_ok_iff request, ?_⟩
  rw [← exists_check_eq_ok_iff request]
  cases request.check with
  | ok i => exact iff_of_false nofun (not_not_intro ⟨i, rfl⟩)
  | error fault => exact iff_of_true ⟨fault, rfl⟩ nofun

end Request

end Program

end ValidatorClient
