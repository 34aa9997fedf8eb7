import Offside.Main
import Offside.Proofs.Token.Reading
import Offside.Proofs.Layout.Balance
import Offside.Proofs.Layout.Shape
import Offside.Proofs.Token.Written
import Offside.Proofs.Parse.Lossless
import Offside.Proofs.Grammar.Trees
import Offside.Proofs.Grammar.Laid
import Offside.Proofs.Language.Recovery
import Offside.Proofs.Parse.Starts
import Offside.Proofs.Parse.Committed
import Offside.Proofs.Parse.Disciplined
import Offside.Proofs.Parse.Denoted
import Offside.Proofs.Layout.Tiling
import Offside.Proofs.Layout.Relative
import Offside.Proofs.Language.Errors
import Offside.Proofs.Language.Termination
import Offside.Proofs.Parse.Stopped
import Offside.Proofs.Parse.Traces
import Offside.Proofs.Diagnostic.LineTable
import Offside.Proofs.Layout.Separated
import Offside.Proofs.Layout.Contexts
import Offside.Proofs.Parse.Spans
import Offside.Proofs.Parse.Pointed
import Offside.Proofs.Parse.Tabled
import Offside.Proofs.Layout.Dedent
import Offside.Proofs.Layout.Virtual
import Offside.Proofs.Layout.Label
import Offside.Proofs.Parse.Resumed
import Offside.Proofs.Token.Alone
import Offside.Proofs.Parse.Lists
import Offside.Proofs.Diagnostic.LineColumn
import Offside.Proofs.Tree.Walks
import Offside.Proofs.Token.Set
import Offside.Proofs.Token.Strings
import Offside.Proofs.Parse.Merged
import Offside.Proofs.Parse.Brackets
