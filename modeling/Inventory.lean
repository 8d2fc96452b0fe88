import Inventory.Command.Reach
import Inventory.Database.Direct
import Inventory.Main
import Inventory.Proofs.Atomicity
import Inventory.Proofs.Rollback
import Inventory.Proofs.Transparency
import Inventory.Proofs.History
import Inventory.Proofs.Rows
import Inventory.Proofs.Case
import Inventory.Proofs.Naming
import Inventory.Proofs.View
import Inventory.Proofs.Transition
import Inventory.Proofs.Ledger
import Inventory.Proofs.Frame
import Inventory.Proofs.Unreadable
import Inventory.Proofs.Limits
import Inventory.Proofs.Distinct
import Inventory.Proofs.Evolution
import Inventory.Proofs.Content
import Inventory.Proofs.Document
import Inventory.Proofs.Encoding
import Inventory.Proofs.Labels
import Inventory.Proofs.Rejection
import Inventory.Proofs.WellTyped
import Inventory.Proofs.Layers
import Inventory.Proofs.Command
import Inventory.Proofs.LabelFile
import Inventory.Proofs.Damaged
import Inventory.Proofs.Addressing
import Inventory.Proofs.KeySheet
import Inventory.Proofs.Policy
import Inventory.Proofs.Substitution
import Inventory.Proofs.CharacterData
import Inventory.Proofs.Lookup
import Inventory.Proofs.Partition
import Inventory.Proofs.OwnValues
import Inventory.Proofs.Expressions
import Inventory.Proofs.Admission
import Inventory.Proofs.Adjusting
import Inventory.Proofs.Composing
import Inventory.Proofs.ImportLines
import Inventory.Proofs.Layout
import Inventory.Proofs.Filing
import Inventory.Proofs.Columns
import Inventory.Proofs.Checks
import Inventory.Proofs.Batches
import Inventory.Proofs.Confinement
import Inventory.Proofs.ImportFaults
import Inventory.Proofs.Opening
import Inventory.Proofs.ImportCommand
import Inventory.Proofs.Merging
import Inventory.Proofs.InitialSettings
import Inventory.Proofs.SettingFaults
