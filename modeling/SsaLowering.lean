import SsaLowering.Document.Codec
import SsaLowering.Document.ErrorCodec
import SsaLowering.Document.ErrorView
import SsaLowering.Document.Json
import SsaLowering.Document.View
import SsaLowering.Ir.Listing
import SsaLowering.Program
import SsaLowering.Settings.Directory
import SsaLowering.Syntax.Factory
import SsaLowering.Syntax.Outline
import SsaLowering.Proofs.Ir.Growth
import SsaLowering.Proofs.Lower.Steps
import SsaLowering.Proofs.Ir.Emission
import SsaLowering.Proofs.Ir.Layout
import SsaLowering.Proofs.Ir.WellFormed
import SsaLowering.Proofs.Ir.Verification
import SsaLowering.Proofs.Ir.Search
import SsaLowering.Proofs.Ir.Dominance
import SsaLowering.Proofs.Scope
import SsaLowering.Proofs.Lower.Invariant
import SsaLowering.Proofs.Ir.Progress
import SsaLowering.Proofs.Lower.Expression
import SsaLowering.Proofs.Lower.Growth
import SsaLowering.Proofs.Lower.Statement
import SsaLowering.Proofs.Lower.Body
import SsaLowering.Proofs.Ir.Module
import SsaLowering.Proofs.Lower.Declaration
import SsaLowering.Proofs.Lower.Run
import SsaLowering.Proofs.Ir.Account
import SsaLowering.Proofs.Lower.Opened
import SsaLowering.Proofs.Lower.Dominance
import SsaLowering.Proofs.Lower.Acceptance
import SsaLowering.Proofs.Lower.Rollback
import SsaLowering.Proofs.Lower.Members
import SsaLowering.Proofs.Ir.References
import SsaLowering.Proofs.Lower.References
import SsaLowering.Proofs.Ir.Reachability
import SsaLowering.Proofs.Lower.Warnings
import SsaLowering.Proofs.Meaning.Machine
import SsaLowering.Proofs.Ir.Narrowing
import SsaLowering.Proofs.Ir.Walk
import SsaLowering.Proofs.Ir.Construction
import SsaLowering.Proofs.Ir.Soundness
import SsaLowering.Proofs.Ir.Slots
import SsaLowering.Proofs.Ir.Assignment
import SsaLowering.Proofs.Lower.Reads
import SsaLowering.Proofs.Lower.Initialisation
import SsaLowering.Proofs.Meaning.Preservation
import SsaLowering.Proofs.Ir.Mentions
import SsaLowering.Proofs.Ir.Renumbering
import SsaLowering.Proofs.Lower.Operands
import SsaLowering.Proofs.Lower.Literals
import SsaLowering.Proofs.Lower.Refusals
import SsaLowering.Proofs.Renaming.Tree
import SsaLowering.Proofs.Renaming.Mirror
import SsaLowering.Proofs.Renaming.Statement
import SsaLowering.Proofs.Renaming.Program
import SsaLowering.Proofs.Ir.SymbolTable
import SsaLowering.Proofs.Ir.Unnamed
import SsaLowering.Proofs.Lower.Shadowing
import SsaLowering.Proofs.Renaming.Twins
import SsaLowering.Proofs.Renaming.Locals
import SsaLowering.Proofs.Ir.Traffic
import SsaLowering.Proofs.Lower.Traffic
import SsaLowering.Proofs.ScopeTree
import SsaLowering.Proofs.Ir.Atomicity
import SsaLowering.Proofs.Lower.Naming
import SsaLowering.Proofs.Lower.Targets
import SsaLowering.Proofs.Ir.Aggregates
import SsaLowering.Proofs.Quotations
import SsaLowering.Proofs.Lower.StringData
import SsaLowering.Proofs.Lower.StringRuns
import SsaLowering.Proofs.Text
import SsaLowering.Proofs.Linkage
import SsaLowering.Proofs.Ir.LocalNames
import SsaLowering.Proofs.Ir.NamedStructs
import SsaLowering.Proofs.Ir.Rows
import SsaLowering.Proofs.Ir.ListedTypes
import SsaLowering.Proofs.Lower.Types
import SsaLowering.Proofs.Lower.StructLines
import SsaLowering.Proofs.Ir.NameSupply
import SsaLowering.Proofs.Ir.TypeText
import SsaLowering.Proofs.Ir.Unfolding
import SsaLowering.Proofs.Lower.Closure
import SsaLowering.Proofs.Lower.Blocks
import SsaLowering.Proofs.Checked.Access
import SsaLowering.Proofs.Checked.Steps
import SsaLowering.Proofs.Checked.Emission
import SsaLowering.Proofs.Checked.Lowering
import SsaLowering.Proofs.Checked.Safety
import SsaLowering.Proofs.Checked.Body
import SsaLowering.Proofs.Checked.Program
