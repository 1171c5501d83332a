import ValidatorClient.Command
import ValidatorClient.Settings.Basic
import ValidatorClient.Signer.Reference
import ValidatorClient.Proofs.Codec.Writing
import ValidatorClient.Proofs.Codec.Reading
import ValidatorClient.Proofs.Codec.Exact
import ValidatorClient.Proofs.Text.Utf8
import ValidatorClient.Proofs.Program.Instruction
import ValidatorClient.Proofs.Ledger.Message
import ValidatorClient.Proofs.Ledger.Wire
import ValidatorClient.Proofs.Process
import ValidatorClient.Proofs.BlockhashCache
import ValidatorClient.Proofs.Assembler.Run
import ValidatorClient.Proofs.Assembler.Submission
import ValidatorClient.Proofs.Assembler.Coherence
import ValidatorClient.Proofs.Context
import ValidatorClient.Proofs.Command.Preparation
import ValidatorClient.Proofs.Command.Run
import ValidatorClient.Proofs.Command.Refusal
import ValidatorClient.Proofs.Command.Submission
import ValidatorClient.Proofs.Ledger.Serialization
import ValidatorClient.Proofs.Ledger.Splitting
import ValidatorClient.Proofs.Assembler.Unsigned
import ValidatorClient.Proofs.Context.Cache
import ValidatorClient.Proofs.BlockhashCache.History
import ValidatorClient.Proofs.Command.Accounts
import ValidatorClient.Proofs.Command.Signing
import ValidatorClient.Proofs.Codec.Stability
import ValidatorClient.Proofs.Program.Location
import ValidatorClient.Proofs.Assembler.Derived
import ValidatorClient.Proofs.Assembler.Schedule
import ValidatorClient.Proofs.Assembler.Failure
import ValidatorClient.Proofs.Settings.Store
import ValidatorClient.Proofs.Command.Numbered
import ValidatorClient.Proofs.Program.Request
import ValidatorClient.Proofs.Program.Proposal
import ValidatorClient.Proofs.Command.Gems
import ValidatorClient.Proofs.Command.Reading
import ValidatorClient.Proofs.Codec.Insertion
import ValidatorClient.Proofs.Codec.Refusal
import ValidatorClient.Proofs.Codec.LeastLength
import ValidatorClient.Proofs.Ledger.AddressText
import ValidatorClient.Proofs.Signer.Reference
import ValidatorClient.Proofs.Signer.KeyPair
import ValidatorClient.Proofs.Signer.DerivationPath
import ValidatorClient.Proofs.Signer.Device
import ValidatorClient.Proofs.Codec.Consumption
import ValidatorClient.Proofs.Settings.Cluster
import ValidatorClient.Proofs.Settings.History
import ValidatorClient.Proofs.FileTree.Refusal
