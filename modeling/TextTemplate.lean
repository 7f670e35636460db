import TextTemplate.Engine
import TextTemplate.Extension.Arity
import TextTemplate.Extension.Blocks
import TextTemplate.Extension.Marker
import TextTemplate.Library.Standard
import TextTemplate.Proofs.Token.Partition
import TextTemplate.Proofs.Token.Reading
import TextTemplate.Proofs.Compile.Directive
import TextTemplate.Proofs.Compile.Grammar
import TextTemplate.Proofs.Compile.Progress
import TextTemplate.Proofs.Compile.Derivation
import TextTemplate.Proofs.Compile.Ending
import TextTemplate.Proofs.Compile.Factory
import TextTemplate.Proofs.Compile.Tags
import TextTemplate.Proofs.Compile.Building
import TextTemplate.Proofs.Compile.Agreement
import TextTemplate.Proofs.Compile.WellNested
import TextTemplate.Proofs.Token.Prefix
import TextTemplate.Proofs.Compile.Truncation
import TextTemplate.Proofs.Compile.Rebasing
import TextTemplate.Proofs.Compile.FirstFailure
import TextTemplate.Proofs.Token.Relex
import TextTemplate.Proofs.Text.Trim
import TextTemplate.Proofs.Expression.Written
import TextTemplate.Proofs.Tag.Header
import TextTemplate.Proofs.Node.Tree
import TextTemplate.Proofs.Node.RoundTrip
import TextTemplate.Proofs.Node.Scopes
import TextTemplate.Proofs.Condition.Grammar
import TextTemplate.Proofs.Condition.Soundness
import TextTemplate.Proofs.Condition.Acceptance
import TextTemplate.Proofs.Compile.Unplaced
import TextTemplate.Proofs.Compile.HostTag
import TextTemplate.Proofs.Compile.Trace
import TextTemplate.Proofs.Compile.Placement
import TextTemplate.Proofs.Compile.HostPlacement
import TextTemplate.Proofs.Compile.ErrorLine
import TextTemplate.Proofs.Library.Precedence
import TextTemplate.Proofs.Tag.Script
import TextTemplate.Proofs.Compile.Journal
import TextTemplate.Proofs.Node.Calls
import TextTemplate.Proofs.Tag.Conduct
import TextTemplate.Proofs.Compile.Resolution
import TextTemplate.Proofs.Compile.OpaqueRegion
import TextTemplate.Proofs.Node.Calm
import TextTemplate.Proofs.Node.Missing
import TextTemplate.Proofs.Compile.Conclusive
import TextTemplate.Proofs.Compile.Composition
import TextTemplate.Proofs.Expression.Grammar
import TextTemplate.Proofs.Node.Watch
import TextTemplate.Proofs.Node.WellFormed
import TextTemplate.Proofs.Node.Substitution
import TextTemplate.Proofs.Condition.LoneOperand
import TextTemplate.Proofs.Token.Pushback
import TextTemplate.Proofs.Token.Segments
import TextTemplate.Proofs.Token.Marks
import TextTemplate.Proofs.Token.Lines
import TextTemplate.Proofs.Token.Cut
import TextTemplate.Proofs.Compile.Likeness
import TextTemplate.Proofs.Compile.TextPrefix
import TextTemplate.Proofs.Compile.CommentInsertion
import TextTemplate.Proofs.Engine.Cache
import TextTemplate.Proofs.Condition.Evaluation
import TextTemplate.Proofs.Library.Registration
import TextTemplate.Proofs.Condition.Printing
import TextTemplate.Proofs.Condition.Height
import TextTemplate.Proofs.Node.Assignment
import TextTemplate.Proofs.Node.Iteration
import TextTemplate.Proofs.Compile.WithForms
import TextTemplate.Proofs.Compile.Sections
import TextTemplate.Proofs.Expression.Literals
import TextTemplate.Proofs.Expression.Numbers
import TextTemplate.Proofs.Compile.EqualityForms
import TextTemplate.Proofs.Node.Branches
import TextTemplate.Proofs.Node.Holes
import TextTemplate.Proofs.Compile.Activation
import TextTemplate.Proofs.Compile.Surroundings
import TextTemplate.Proofs.Compile.NestedBranches
import TextTemplate.Proofs.Expression.Joining
import TextTemplate.Proofs.Text.Strings
import TextTemplate.Proofs.Token.Splitting
import TextTemplate.Proofs.Condition.Lexing
import TextTemplate.Proofs.Condition.Culprit
import TextTemplate.Proofs.Expression.Position
import TextTemplate.Proofs.Value.Children
import TextTemplate.Proofs.Tag.LoopHeader
import TextTemplate.Proofs.Filter.Degradation
import TextTemplate.Proofs.Config.Admission
import TextTemplate.Proofs.Text.Separators
import TextTemplate.Proofs.Config.Path
import TextTemplate.Proofs.Node.Spaceless
import TextTemplate.Proofs.Compile.Escaping
import TextTemplate.Proofs.Engine.Confinement
import TextTemplate.Proofs.Compile.Origins
import TextTemplate.Proofs.Config.RoundTrip
import TextTemplate.Proofs.Config.RoundTrip
import TextTemplate.Proofs.Context.Visible
