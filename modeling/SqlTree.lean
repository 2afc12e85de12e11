import SqlTree.Build.Column
import SqlTree.Build.Delete
import SqlTree.Build.Insert
import SqlTree.Build.Select
import SqlTree.Build.Struct
import SqlTree.Build.Update
import SqlTree.Datum.Statement
import SqlTree.Query.LiteralValue
import SqlTree.Session
import SqlTree.Statement.Layout
import SqlTree.TableNames.Finder
import SqlTree.Proofs.Lexing.Spacing
import SqlTree.Proofs.Reading.Block
import SqlTree.Proofs.Reading.Body
import SqlTree.Proofs.Reading.Query
import SqlTree.Proofs.Lexing.Apart
import SqlTree.Proofs.Lexing.Run
import SqlTree.Proofs.Writing.Name
import SqlTree.Proofs.Writing.DataType
import SqlTree.Proofs.Tree.Induction
import SqlTree.Proofs.Writing.Expr
import SqlTree.Proofs.Writing.Query
import SqlTree.Proofs.Text.Whole
import SqlTree.Proofs.Writing.Pieces
import SqlTree.Proofs.Text.Query
import SqlTree.Proofs.Lexing.Lexeme
import SqlTree.Proofs.Parsing.Agree
import SqlTree.Proofs.Parsing.DataType
import SqlTree.Proofs.Parsing.Expr
import SqlTree.Proofs.Parsing.Operator
import SqlTree.Proofs.Parsing.Precedence
import SqlTree.Proofs.Text.Operator
import SqlTree.Proofs.Lexing.Enclosed
import SqlTree.Proofs.Lexing.Longest
import SqlTree.Proofs.Text.Complete
import SqlTree.Proofs.Text.Statement
import SqlTree.Proofs.Carrying.Any
import SqlTree.Proofs.Carrying.Segments
import SqlTree.Proofs.Carrying.Verbatim
import SqlTree.Proofs.Lexing.Placed
import SqlTree.Proofs.Tracking.Expr
import SqlTree.Proofs.Tracking.Query
import SqlTree.Proofs.Tracking.Session
import SqlTree.Proofs.Widening.Expr
import SqlTree.Proofs.Widening.Query
import SqlTree.Proofs.Widening.Statement
import SqlTree.Proofs.Text.Conflict
import SqlTree.Proofs.Text.Names
import SqlTree.Proofs.Text.Regrouped
import SqlTree.Proofs.Text.Respaced
import SqlTree.Proofs.Descent.Session
import SqlTree.Proofs.TableNames.Found
import SqlTree.Proofs.TableNames.Sequence
import SqlTree.Proofs.Build.Clauses
import SqlTree.Proofs.Build.Filled
import SqlTree.Proofs.Build.Widths
import SqlTree.Proofs.Text.Struct
import SqlTree.Proofs.Text.Update
import SqlTree.Proofs.Text.Conditions
import SqlTree.Proofs.Number.Nearest
import SqlTree.Proofs.Number.Numeral
import SqlTree.Proofs.Number.Shortest
import SqlTree.Proofs.Text.Constant
