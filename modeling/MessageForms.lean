import MessageForms.Definition.Class
import MessageForms.Definition.Parts
import MessageForms.Definition.LexicalVariable
import MessageForms.Definition.Method
import MessageForms.Diagnostic
import MessageForms.Dialect
import MessageForms.Expansion.Walk
import MessageForms.Expansion.Program
import MessageForms.Expansion.Recipe
import MessageForms.Expansion.Standard
import MessageForms.Expansion.Table
import MessageForms.Fault
import MessageForms.Keyword
import MessageForms.Node.Basic
import MessageForms.Node.Equality
import MessageForms.Number.Binary64
import MessageForms.Number.Decimal
import MessageForms.Proofs.Definition.Bounded
import MessageForms.Proofs.Definition.ClassGrammar
import MessageForms.Proofs.Definition.Division
import MessageForms.Proofs.Definition.Heading
import MessageForms.Proofs.Definition.Kept
import MessageForms.Proofs.Definition.MethodGrammar
import MessageForms.Proofs.Definition.Relabeled
import MessageForms.Proofs.Definition.VariableGrammar
import MessageForms.Proofs.Expansion.Chain
import MessageForms.Proofs.Expansion.Descendants
import MessageForms.Proofs.Expansion.Ends
import MessageForms.Proofs.Expansion.Finishing
import MessageForms.Proofs.Expansion.Fixed
import MessageForms.Proofs.Expansion.Follows
import MessageForms.Proofs.Expansion.Forms
import MessageForms.Proofs.Expansion.Joining
import MessageForms.Proofs.Expansion.Layouts
import MessageForms.Proofs.Expansion.Lossless
import MessageForms.Proofs.Expansion.Normal
import MessageForms.Proofs.Expansion.Pointing
import MessageForms.Proofs.Expansion.Standard
import MessageForms.Proofs.Expansion.Termination
import MessageForms.Proofs.Expansion.Unchanged
import MessageForms.Proofs.Expansion.Unfolding
import MessageForms.Proofs.Expansion.Walked
import MessageForms.Proofs.Expansion.WalksTo
import MessageForms.Proofs.Grammar.Agreement
import MessageForms.Proofs.Grammar.Completeness
import MessageForms.Proofs.Grammar.Completion
import MessageForms.Proofs.Grammar.Following
import MessageForms.Proofs.Grammar.Joining
import MessageForms.Proofs.Grammar.Labels
import MessageForms.Proofs.Grammar.Locality
import MessageForms.Proofs.Grammar.Moved
import MessageForms.Proofs.Grammar.Outcome
import MessageForms.Proofs.Grammar.Parts
import MessageForms.Proofs.Grammar.Placing
import MessageForms.Proofs.Grammar.Plain
import MessageForms.Proofs.Grammar.Predictive
import MessageForms.Proofs.Grammar.Program
import MessageForms.Proofs.Grammar.Shape
import MessageForms.Proofs.Grammar.Simulation
import MessageForms.Proofs.Grammar.Soundness
import MessageForms.Proofs.Grammar.Stopping
import MessageForms.Proofs.Grammar.Tree
import MessageForms.Proofs.Grammar.Understood
import MessageForms.Proofs.Grammar.ValidPrefix
import MessageForms.Proofs.Grammar.WellFormed
import MessageForms.Proofs.Node.Relabeled
import MessageForms.Proofs.Node.Search
import MessageForms.Proofs.Node.Within
import MessageForms.Proofs.Number.DigitRun
import MessageForms.Proofs.Reading.Lookahead
import MessageForms.Proofs.Reading.Progress
import MessageForms.Proofs.Reading.Settling
import MessageForms.Proofs.Reading.Spares
import MessageForms.Proofs.Reading.StrayDot
import MessageForms.Proofs.Reading.Termination
import MessageForms.Proofs.Reading.Terminator
import MessageForms.Proofs.Rendering.Laid
import MessageForms.Proofs.Rendering.Reading
import MessageForms.Proofs.Rendering.Renders
import MessageForms.Proofs.Rendering.Shape
import MessageForms.Proofs.Rendering.Written
import MessageForms.Proofs.Running
import MessageForms.Proofs.Source.Places
import MessageForms.Proofs.Source.Rows
import MessageForms.Proofs.Source.Shift
import MessageForms.Proofs.Source.Tracking
import MessageForms.Proofs.Text.Class
import MessageForms.Proofs.Text.LetterCase
import MessageForms.Proofs.Text.Words
import MessageForms.Proofs.Token.Cache
import MessageForms.Proofs.Token.Joining
import MessageForms.Proofs.Token.Lexeme
import MessageForms.Proofs.Token.MaximalMunch
import MessageForms.Proofs.Token.Next
import MessageForms.Proofs.Token.Onward
import MessageForms.Proofs.Token.Repeated
import MessageForms.Proofs.Token.Operation
import MessageForms.Proofs.Token.Session
import MessageForms.Proofs.Token.Tokenized
import MessageForms.Proofs.Token.Upcoming
import MessageForms.Reading.Expression
import MessageForms.Reading.List
import MessageForms.Reading.Program
import MessageForms.Source.Cursor
import MessageForms.Source.Position
import MessageForms.Text.Basic
import MessageForms.Text.CaseTables
import MessageForms.Text.Words
import MessageForms.Text.Quoted
import MessageForms.Token.Basic
import MessageForms.Token.Scan
import MessageForms.Token.Stream
import MessageForms.Proofs.Expansion.Registration
import MessageForms.Proofs.Text.Boundaries
import MessageForms.Proofs.Text.Spellings
import MessageForms.Proofs.Node.Erased
import MessageForms.Proofs.Node.Compared
