import ValidatorClient.Proofs.Command.Run
import ValidatorClient.Proofs.Program.Instruction

namespace ValidatorClient.Command

open Codec Ledger Attempt Process
open List (Forall₂)

variable {ctx : Context} {payer : Signer} {command : Command} {cache cache' : BlockhashCache}
  {exchanges : List Exchange} {r : Option (Except ClientError Submission)}

section Compiled

variable {instructions : List Ledger.Instruction} {feePayer : Address} {blockhash : Blockhash}
  {m : Message}

end Compiled

theorem exists_compiled_of_submit {wire : Bytes} {lastValidHeight : UInt64}
    {answer : Option (Except RpcError Submission)}
    (h : (command.run ctx payer cache).Trace exchanges cache' r)
    (hmem : ⟨.submit wire lastValidHeight, answer⟩ ∈ exchanges) :
    ∃ reads prepared data c,
      (command.prepare ctx payer.address cache).Trace reads cache (some (.ok prepared)) ∧
      command.Asked ctx cache reads prepared ∧
      Program.Instruction.layout.encode prepared.instruction = .ok data ∧
      Compiled.Sound (ctx.budget ++ [⟨ctx.program, prepared.accounts, data⟩]) payer.address c ∧
      c.wire = .ok wire := by
  rcases trace_run h with
    ⟨-, hasked, -⟩ | ⟨reads, sent, prepared, data, he, -, hasked, hprepare, htold, hdata, hsent⟩
  · obtain ⟨_, hquery⟩ := hasked _ hmem
    cases hquery
  rw [he] at hmem
  rcases List.mem_append.1 hmem with hmem | hmem
  · obtain ⟨_, hquery⟩ := hasked _ hmem
    cases hquery
  obtain ⟨c, hsound, hwire⟩ := hsent.sound hmem
  exact ⟨reads, prepared, data, c, hprepare, htold, hdata, hsound, hwire⟩

end ValidatorClient.Command
