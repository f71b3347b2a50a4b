import Rech.Main
import Rech.Proofs.Grammar.Expression
import Rech.Proofs.Token.Stream
import Rech.Proofs.Parsing.Basic
import Rech.Proofs.Parsing.Expression
import Rech.Proofs.Grammar.Statement
import Rech.Proofs.Grammar.Parts
import Rech.Proofs.Parsing.Statement
import Rech.Proofs.Grammar.Lines
import Rech.Proofs.Grammar.Program
import Rech.Proofs.Text.Place
import Rech.Proofs.Text.InLine
import Rech.Proofs.Text.Digits
import Rech.Proofs.Text.Spans
import Rech.Proofs.Binary64.Rounding
import Rech.Proofs.Binary64.Shortest
import Rech.Proofs.Binary64.Reading
import Rech.Proofs.Binary64.Forms
import Rech.Proofs.Binary64.Styles
import Rech.Proofs.Binary64.Display
import Rech.Proofs.Token.Segmentation
import Rech.Proofs.Token.Exact
import Rech.Proofs.Token.Order
import Rech.Proofs.Token.Joining
import Rech.Proofs.Grammar.Joining
import Rech.Proofs.Run.Lines
import Rech.Proofs.Run.Joining
import Rech.Proofs.Tree.Courses
import Rech.Proofs.Run.Visits
import Rech.Proofs.Run.Chains
import Rech.Proofs.Run.Returning
import Rech.Proofs.Run.Tracing
import Rech.Proofs.Run.Failing
import Rech.Proofs.Grammar.Runnable
import Rech.Proofs.Grammar.Order
import Rech.Proofs.Run.Guards
import Rech.Proofs.Run.Safety
import Rech.Proofs.Run.ErrorLines
import Rech.Proofs.Run.Regrouping
import Rech.Proofs.Run.Names
import Rech.Proofs.Run.Interruption
import Rech.Proofs.Run.Dependence
import Rech.Proofs.Run.Unset
import Rech.Proofs.Run.Order
import Rech.Proofs.Session.Joining
import Rech.Proofs.Session.BraceBalance
import Rech.Proofs.Session.Turns
import Rech.Proofs.Session.Names
import Rech.Proofs.Session.Readings
import Rech.Proofs.Session.Grouping
import Rech.Proofs.Session.Vocabulary
import Rech.Proofs.Token.Writing
import Rech.Proofs.Tree.Words
import Rech.Proofs.Grammar.Printing
import Rech.Proofs.Token.Phrases
import Rech.Proofs.Session.Showing
import Rech.Proofs.Session.Numbers
import Rech.Proofs.Parsing.Placing
import Rech.Proofs.Grammar.Anchors
import Rech.Proofs.Outline.Quoting
import Rech.Proofs.Outline.Bracketed
import Rech.Proofs.Outline.Indented
import Rech.Proofs.Outline.Tree
import Rech.Proofs.Outline.Listing
import Rech.Proofs.Token.Rendering
import Rech.Proofs.Token.Quotes
import Rech.Proofs.Grammar.Loose
import Rech.Proofs.Parsing.Halting
import Rech.Proofs.Parsing.Completion
import Rech.Proofs.Parsing.Locality
import Rech.Proofs.Parsing.Agreement
import Rech.Proofs.Parsing.Errors
import Rech.Proofs.Parsing.Position
import Rech.Proofs.Parsing.Maximal
import Rech.Proofs.Parsing.Wary
import Rech.Proofs.Parsing.Alike
import Rech.Proofs.Parsing.Progress
import Rech.Proofs.Token.LineEndings
import Rech.Proofs.Token.Calls
import Rech.Proofs.Binary64.Nearest
import Rech.Proofs.Binary64.Rational
import Rech.Proofs.Binary64.Division
import Rech.Proofs.Binary64.Numerals
import Rech.Proofs.CommandLine.Table
