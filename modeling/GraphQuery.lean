import GraphQuery.Connection.Run
import GraphQuery.Log.Setup
import GraphQuery.Settings.Basic
import GraphQuery.Block.Script
import GraphQuery.Query.Method
import GraphQuery.Query.Text
import GraphQuery.Value.Mapping
import GraphQuery.Decimal.Reading
import GraphQuery.Text.Upper
import GraphQuery.Text.Letter
import GraphQuery.Proofs.Registry.Grouping
import GraphQuery.Proofs.Registry.Serial
import GraphQuery.Proofs.Block.Effect
import GraphQuery.Proofs.Block.Ledger
import GraphQuery.Proofs.Block.Absorption
import GraphQuery.Proofs.Block.Run
import GraphQuery.Proofs.Block.Arena
import GraphQuery.Proofs.Block.Heading
import GraphQuery.Proofs.Block.Fork
import GraphQuery.Proofs.Registry.Order
import GraphQuery.Proofs.Registry.Family
import GraphQuery.Proofs.Registry.Place
import GraphQuery.Proofs.Block.Position
import GraphQuery.Proofs.Block.Loose
import GraphQuery.Proofs.Block.Depth
import GraphQuery.Proofs.Block.Reach
import GraphQuery.Proofs.Block.Emission
import GraphQuery.Proofs.Query.Parts
import GraphQuery.Proofs.Query.Calls
import GraphQuery.Proofs.Query.Sorting
import GraphQuery.Proofs.Query.Exchange
import GraphQuery.Proofs.Query.Freeze
import GraphQuery.Proofs.Query.Pruning
import GraphQuery.Proofs.Query.Segments
import GraphQuery.Proofs.Query.Exposure
import GraphQuery.Proofs.Query.LastValue
import GraphQuery.Proofs.Query.Paging
import GraphQuery.Proofs.Query.Union
import GraphQuery.Proofs.Block.Opening
import GraphQuery.Proofs.Block.Merge
import GraphQuery.Proofs.Block.Naming
import GraphQuery.Proofs.Block.Growth
import GraphQuery.Proofs.Block.Stranding
import GraphQuery.Proofs.Block.Pieces
import GraphQuery.Proofs.Block.Recovery
import GraphQuery.Proofs.Block.Deferral
import GraphQuery.Proofs.Connection.Completion
import GraphQuery.Proofs.Connection.Origin
import GraphQuery.Proofs.Guard.Passage
import GraphQuery.Proofs.Block.Quoting
import GraphQuery.Proofs.Decimal.Integer
import GraphQuery.Proofs.Literal.Unambiguous
import GraphQuery.Proofs.Clause.Residue
import GraphQuery.Proofs.Block.Negation
import GraphQuery.Proofs.Block.Opposite
import GraphQuery.Proofs.Block.Retention
import GraphQuery.Proofs.Block.Replacement
import GraphQuery.Proofs.Block.Returning
import GraphQuery.Proofs.Block.Shape
import GraphQuery.Proofs.Clause.Conditions
import GraphQuery.Proofs.Clause.Listing
import GraphQuery.Proofs.Signature.Binding
import GraphQuery.Proofs.Guard.Capture
import GraphQuery.Proofs.Connection.Mishap
import GraphQuery.Proofs.Block.Bracket
import GraphQuery.Proofs.Block.Shortest
import GraphQuery.Proofs.Registry.Family
import GraphQuery.Proofs.Registry.Place
