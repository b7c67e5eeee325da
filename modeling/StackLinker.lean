import StackLinker.OrderedMap.Lemmas
import StackLinker.Code.Emission
import StackLinker.Main
import StackLinker.Proofs.OrderedMap
import StackLinker.Proofs.Agreement
import StackLinker.Proofs.Sequencing
import StackLinker.Proofs.Pairing
import StackLinker.Proofs.Places
import StackLinker.Proofs.JumpAddress
import StackLinker.Proofs.Code.Addresses
import StackLinker.Proofs.Code.Jumps
import StackLinker.Proofs.Code.Relocation
import StackLinker.Proofs.Code.Emission
import StackLinker.Proofs.Code.Tiling
import StackLinker.Proofs.Storage.Layout
import StackLinker.Proofs.Storage.Plan
import StackLinker.Proofs.Storage.Dependents
import StackLinker.Proofs.Storage.Sweep
import StackLinker.Proofs.Program.Resolve
import StackLinker.Proofs.Program.Stages
import StackLinker.Proofs.Program.Validation
import StackLinker.Proofs.Program.Carriers
import StackLinker.Proofs.Program.Completeness
import StackLinker.Proofs.Program.Encoding
import StackLinker.Proofs.Program.Rebasing
import StackLinker.Proofs.Program.History
import StackLinker.Proofs.Description.Labels
import StackLinker.Proofs.Description.Faults
import StackLinker.Proofs.Description.Translation
import StackLinker.Proofs.Description.Closure
import StackLinker.Proofs.Storage.Displacement
import StackLinker.Proofs.Program.Displacement
import StackLinker.Proofs.Code.Insertion
import StackLinker.Proofs.CommandLine.Run
import StackLinker.Proofs.Program.Frame
import StackLinker.Proofs.Program.Insertion
import StackLinker.Proofs.Storage.Slots
import StackLinker.Proofs.Word
import StackLinker.Proofs.Storage.Events
import StackLinker.Proofs.Storage.Positions
import StackLinker.Proofs.Storage.ClosedForm
import StackLinker.Proofs.Storage.EntryOrder
import StackLinker.Proofs.Storage.Edits
import StackLinker.Proofs.Code.Readdressing
import StackLinker.Proofs.Code.Patching
import StackLinker.Proofs.Program.SingleStages
import StackLinker.Proofs.Text.Blank
import StackLinker.Proofs.Text.Numeral
import StackLinker.Proofs.JumpAddress.Codec
import StackLinker.Proofs.Literal
import StackLinker.Proofs.Storage.Respelling
import StackLinker.Proofs.Text.Column
import StackLinker.Proofs.Code.Listing
import StackLinker.Proofs.Storage.Registration
