import NestLint.Case.Document
import NestLint.Case.Run
import NestLint.Config.Directory
import NestLint.Event.Document
import NestLint.Files.Document
import NestLint.Lint.Document
import NestLint.Lint.Start
import NestLint.Log.Document
import NestLint.Log.Stamp
import NestLint.Match.Choice
import NestLint.Reader.Document
import NestLint.Registry.Document
import NestLint.Proofs.Match.Refinement
import NestLint.Proofs.Match.Scheme
import NestLint.Proofs.Tree.Walk
import NestLint.Proofs.Lint.Said
import NestLint.Proofs.Lint.Expansions
import NestLint.Proofs.Reader.Bounds
import NestLint.Proofs.Reader.Conditionals
import NestLint.Proofs.Lint.Splicing
import NestLint.Proofs.Report.Parentheses
import NestLint.Proofs.Report.Words
import NestLint.Proofs.Report.Precedence
import NestLint.Proofs.Report.Reading
import NestLint.Proofs.Lint.Counts
import NestLint.Proofs.Match.Isolation
import NestLint.Proofs.Report.Literals
import NestLint.Proofs.Lint.Accounting
import NestLint.Proofs.Lint.Books
import NestLint.Proofs.Tree.Spans
import NestLint.Proofs.Lint.Families
import NestLint.Proofs.Lint.Contexts
import NestLint.Proofs.Lint.Restoring
import NestLint.Proofs.Match.Options
import NestLint.Proofs.Match.Flattening
import NestLint.Proofs.Match.Captured
import NestLint.Proofs.Config.Saving
import NestLint.Proofs.Lint.Shapes
import NestLint.Proofs.Lint.Comments
import NestLint.Proofs.Tree.Rounds
import NestLint.Proofs.Reader.Faults
import NestLint.Proofs.Reader.Errors
import NestLint.Proofs.Reader.Shrinking
import NestLint.Proofs.Reader.Statements
import NestLint.Proofs.Config.Opening
import NestLint.Proofs.Config.Loading
import NestLint.Proofs.Lint.Selection
import NestLint.Proofs.Registry.Hubs
import NestLint.Proofs.Event.Nesting
import NestLint.Proofs.Log.Flags
import NestLint.Proofs.Registry.Failures
import NestLint.Proofs.Source.Positions
import NestLint.Proofs.Case.Verdicts
