import Lox.Main
import Lox.Syntax.SourceForm
import Lox.Text.Bytes
import Lox.ByteScanner
import Lox.ByteScanner.Stream
import Lox.Proofs.Grammar
import Lox.Proofs.Grammar.Clean
import Lox.Proofs.Grammar.Soundness.Expression
import Lox.Proofs.Grammar.Soundness.Statement
import Lox.Proofs.Grammar.Completeness.Expression
import Lox.Proofs.Grammar.Completeness.Statement
import Lox.Proofs.Grammar.Trees
import Lox.Proofs.Grammar.Program
import Lox.Proofs.Number.Nearest
import Lox.Proofs.Number.Decimal
import Lox.Proofs.Number.Float
import Lox.Proofs.Spelling
import Lox.Proofs.Segmentation
import Lox.Proofs.SourceForm.Scanning
import Lox.Proofs.SourceForm.Nodes
import Lox.Proofs.SourceForm.RoundTrip
import Lox.Proofs.Shape
import Lox.Proofs.Numbering
import Lox.Proofs.Walk
import Lox.Proofs.Visits
import Lox.Proofs.Frame
import Lox.Proofs.Execution
import Lox.Proofs.Moments
import Lox.Proofs.Raising
import Lox.Proofs.Agreement
import Lox.Proofs.Agreement.Run
import Lox.Proofs.Session
import Lox.Proofs.Agreement.Reached
import Lox.Proofs.Visits.Unique
import Lox.Proofs.Visits.Recording
import Lox.Proofs.Agreement.Session
import Lox.Proofs.Lexical
import Lox.Proofs.Lexical.Layout
import Lox.Proofs.Lexical.Mirror
import Lox.Proofs.Lexical.Follows
import Lox.Proofs.Lexical.Declarations
import Lox.Proofs.Lexical.Simulation
import Lox.Proofs.Lexical.Session
import Lox.Proofs.CurrentFrame
import Lox.Proofs.Lines
import Lox.Proofs.Verdict
import Lox.Proofs.Context
import Lox.Proofs.Seam
import Lox.Proofs.Transcript
import Lox.Proofs.Rejection
import Lox.Proofs.Joining
import Lox.Proofs.Lexical.Lines
import Lox.Proofs.Splitting
import Lox.Proofs.FailingConsole
import Lox.Proofs.FailingConsole.Moments
import Lox.Proofs.FailingConsole.Session
import Lox.Proofs.Separation
import Lox.Proofs.Sites
import Lox.Proofs.Sites.Walk
import Lox.Proofs.Sites.Outcome
import Lox.Proofs.Hermetic
import Lox.Proofs.Cursor
import Lox.Proofs.Grammar.Prefix
import Lox.Proofs.Grammar.Trailing
import Lox.Proofs.Outcome
import Lox.Proofs.Recovery.Halting
import Lox.Proofs.Recovery.Sentences
import Lox.Proofs.Recovery.Semicolons
import Lox.Proofs.Recovery.Omission
import Lox.Proofs.Recovery.OneError
import Lox.Proofs.Steps
import Lox.Proofs.Receivers
import Lox.Proofs.Receivers.Serving
import Lox.Proofs.Lexical.Allowance
import Lox.Proofs.Allowance
import Lox.Proofs.Lexical.ForLoop
import Lox.Proofs.Lexical.Moments
import Lox.Proofs.Lexical.Desugaring
import Lox.Proofs.LineNumbers
import Lox.Proofs.Returning
import Lox.Proofs.AutoPrint.Reading
import Lox.Proofs.AutoPrint
import Lox.Proofs.Fitting
import Lox.Proofs.Fitting.Running
import Lox.Proofs.Rescanning
import Lox.Proofs.Chain
import Lox.Proofs.PrefixForm.WordTrees
import Lox.Proofs.PrefixForm.Trees
import Lox.Proofs.PrefixForm.Restored
import Lox.Proofs.PrefixForm.Unique
import Lox.Proofs.Context.Restored
import Lox.Proofs.Number.Overflow
import Lox.Proofs.SourceForm.Numbers
import Lox.Proofs.Encoding
import Lox.Proofs.Prompting
import Lox.Proofs.Fields.Trace
import Lox.Proofs.Fields.Moments
import Lox.Proofs.Fields.Records
import Lox.Proofs.Fields.Run
import Lox.Proofs.Fields.LastAssigned
import Lox.Proofs.Boundaries
import Lox.Proofs.ByteSearch
import Lox.Proofs.ByteScanner.Bytes
import Lox.Proofs.ByteScanner.Lexemes
import Lox.Proofs.ByteScanner.Inside
