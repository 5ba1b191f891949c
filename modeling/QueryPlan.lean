import QueryPlan.Compile.Output
import QueryPlan.Document.PlanReader
import QueryPlan.Plan.Build
import QueryPlan.Proofs.Arithmetic.Parentheses
import QueryPlan.Proofs.Scope.Capture
import QueryPlan.Proofs.Scope.CteColumns
import QueryPlan.Proofs.Scope.Simplification
import QueryPlan.Proofs.Window.Expansion
import QueryPlan.Proofs.Compile.Strictness
import QueryPlan.Proofs.Placeholder.Alignment
import QueryPlan.Proofs.SetOperation.Printing
import QueryPlan.Proofs.Compile.LostColumns
import QueryPlan.Proofs.Decode.Folding
import QueryPlan.Proofs.Decode.Idempotence
import QueryPlan.Proofs.Document.ReadBack
import QueryPlan.Proofs.Scope.Shortening
import QueryPlan.Proofs.Placeholder.Binding
import QueryPlan.Proofs.Compile.Leniency
import QueryPlan.Proofs.Compile.Comments
import QueryPlan.Proofs.Decode.JsonColumns
import QueryPlan.Proofs.Placeholder.Naming
import QueryPlan.Proofs.Dialect.Delimited
import QueryPlan.Proofs.Lexical.Literals
import QueryPlan.Proofs.Placeholder.Constants
import QueryPlan.Proofs.Coerce.Typing
import QueryPlan.Proofs.Scope.OutputNames
import QueryPlan.Proofs.Concatenation.Operands
import QueryPlan.Proofs.Condition.ReadBack
import QueryPlan.Proofs.Coerce.ThroughJson
import QueryPlan.Proofs.Decode.RowForms
import QueryPlan.Proofs.Interval.ReadBack
import QueryPlan.Proofs.Calendar.OffsetDates
import QueryPlan.Proofs.Coerce.ArrayText
import QueryPlan.Proofs.Format.ReadBack
import QueryPlan.Proofs.Format.LastWrites
import QueryPlan.Proofs.Coerce.Integers
import QueryPlan.Proofs.Coerce.HexText
import QueryPlan.Proofs.Paging.Offsets
import QueryPlan.Proofs.Decode.ArrayMode
import QueryPlan.Proofs.Decode.NestedColumns
import QueryPlan.Proofs.Placeholder.Numbering
import QueryPlan.Proofs.Coerce.JsonForms
import QueryPlan.Proofs.Compile.Restoration
