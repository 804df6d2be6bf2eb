import SqlComposer.Dialect.Registry
import SqlComposer.Store
import SqlComposer.Proofs.Refusal
import SqlComposer.Proofs.Json.Slot
import SqlComposer.Proofs.Placeholder.Text
import SqlComposer.Proofs.Json.Frame
import SqlComposer.Proofs.Json.Nesting
import SqlComposer.Proofs.Ensures
import SqlComposer.Proofs.Assembly
import SqlComposer.Proofs.Placeholder.Argument
import SqlComposer.Proofs.Placeholder.Naming
import SqlComposer.Proofs.Placeholder.Condition
import SqlComposer.Proofs.Placeholder.Clause
import SqlComposer.Proofs.Placeholder.Assignment
import SqlComposer.Proofs.Placeholder.Statement
import SqlComposer.Proofs.Program
import SqlComposer.Proofs.Placeholder.Program
import SqlComposer.Proofs.Union.Branches
import SqlComposer.Proofs.Expression.Lexing
import SqlComposer.Proofs.Expression.Chain
import SqlComposer.Proofs.Expression.Wrapping
import SqlComposer.Proofs.Json.Reading
import SqlComposer.Proofs.Independence
import SqlComposer.Proofs.Placeholder.Embedding
import SqlComposer.Proofs.Renaming.Clause
import SqlComposer.Proofs.Renaming.Statement
import SqlComposer.Proofs.Interleaving
import SqlComposer.Proofs.Reference
import SqlComposer.Proofs.Binding
import SqlComposer.Proofs.Count
import SqlComposer.Proofs.Dialect.Clause
import SqlComposer.Proofs.Dialect.Statement
import SqlComposer.Proofs.Dialect.Program
import SqlComposer.Proofs.Dialect.Reading
import SqlComposer.Proofs.Unreadable
import SqlComposer.Proofs.History
import SqlComposer.Proofs.CrossJoin
import SqlComposer.Proofs.Gate.Feature
import SqlComposer.Proofs.Gate.Edit
import SqlComposer.Proofs.Gate.Program
import SqlComposer.Proofs.Balance.Shape
import SqlComposer.Proofs.Balance.Text
import SqlComposer.Proofs.Balance.Naming
import SqlComposer.Proofs.Balance.Argument
import SqlComposer.Proofs.Balance.Revision
import SqlComposer.Proofs.Balance.Part
import SqlComposer.Proofs.Balance.Condition
import SqlComposer.Proofs.Balance.Clause
import SqlComposer.Proofs.Balance.Assignment
import SqlComposer.Proofs.Balance.Statement
import SqlComposer.Proofs.Balance.Program
import SqlComposer.Proofs.ReadBack.Splitting
import SqlComposer.Proofs.ReadBack.Collecting
import SqlComposer.Proofs.ReadBack.Program
import SqlComposer.Proofs.SharedAssignment
import SqlComposer.Proofs.Identifier.Naming
import SqlComposer.Proofs.Identifier.Clause
import SqlComposer.Proofs.Identifier.Refusal
import SqlComposer.Proofs.Identifier.Program
import SqlComposer.Proofs.Tree.Written
import SqlComposer.Proofs.Tree.Copy
import SqlComposer.Proofs.Tree.Program
import SqlComposer.Proofs.Upgrade.Spelling
import SqlComposer.Proofs.Upgrade.Version
import SqlComposer.Proofs.Upgrade.Program
import SqlComposer.Proofs.Literal.Lexing
import SqlComposer.Proofs.Json.Layout
import SqlComposer.Proofs.Json.Substitution
import SqlComposer.Proofs.Json.Values
import SqlComposer.Proofs.Json.Literal
import SqlComposer.Proofs.Json.Built
import SqlComposer.Proofs.Json.Legs
import SqlComposer.Proofs.Checked
import SqlComposer.Proofs.Aggregate
import SqlComposer.Proofs.Guard.Refusal
import SqlComposer.Proofs.Guard.Condition
import SqlComposer.Proofs.Restated
import SqlComposer.Proofs.Window.Reading
import SqlComposer.Proofs.Window.Accepted
import SqlComposer.Proofs.Window.Tail
import SqlComposer.Proofs.Window.Program
import SqlComposer.Proofs.Window.Page
import SqlComposer.Proofs.RoundTrip
import SqlComposer.Proofs.Json.Parts
import SqlComposer.Proofs.Like
import SqlComposer.Proofs.Registry
import SqlComposer.Proofs.Identifier.Quoting
