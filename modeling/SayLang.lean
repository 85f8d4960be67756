import SayLang.CommandLine
import SayLang.Cursor
import SayLang.Diagnostic
import SayLang.Evaluation
import SayLang.Files
import SayLang.Integer
import SayLang.Lexer
import SayLang.Log
import SayLang.Main
import SayLang.Object
import SayLang.Parser.Basic
import SayLang.Parser.Climb
import SayLang.Parser.Grammar
import SayLang.Parser.Session
import SayLang.Precedence
import SayLang.Repl
import SayLang.Run
import SayLang.Scanner
import SayLang.Syntax
import SayLang.Syntax.Equality
import SayLang.Syntax.Render
import SayLang.Syntax.Walk
import SayLang.Text.Bytes
import SayLang.Text.Combining
import SayLang.Text.Quoted
import SayLang.Text.Ranges
import SayLang.Text.Unseen
import SayLang.Text.WhiteSpace
import SayLang.Token
import SayLang.Traced
import SayLang.Transcript
import SayLang.Value
import SayLang.Proofs.Lexemes
import SayLang.Proofs.Layout
import SayLang.Proofs.Slices
import SayLang.Proofs.MaximalMunch
import SayLang.Proofs.FirstDiagnostic
import SayLang.Proofs.Derivation
import SayLang.Proofs.Recognizer
import SayLang.Proofs.Derivable
import SayLang.Proofs.Reading
import SayLang.Proofs.Following
import SayLang.Proofs.Acceptance
import SayLang.Proofs.CorrectPrefix
import SayLang.Proofs.Printing
import SayLang.Proofs.RoundTrip
import SayLang.Proofs.Yield
import SayLang.Proofs.Shape
import SayLang.Proofs.Meaning
import SayLang.Proofs.Delivery
import SayLang.Proofs.Instances
import SayLang.Proofs.Outlook
import SayLang.Proofs.Relabelling
import SayLang.Proofs.SideBySide
import SayLang.Proofs.Lockstep
import SayLang.Proofs.Locality
import SayLang.Proofs.Finding
import SayLang.Proofs.Concatenation
import SayLang.Proofs.WholeRuns
import SayLang.Proofs.Formation
import SayLang.Proofs.ErrorOrigin
import SayLang.Proofs.Ledger
import SayLang.Proofs.Accounting
import SayLang.Proofs.KnownOperators
import SayLang.Proofs.Onward
import SayLang.Proofs.Order
import SayLang.Proofs.SourceOrder
import SayLang.Proofs.Fuel
import SayLang.Proofs.Termination
import SayLang.Proofs.Plain
import SayLang.Proofs.Drawn
import SayLang.Proofs.Quoting
import SayLang.Proofs.SExpression
import SayLang.Proofs.Outline
import SayLang.Proofs.ReadBack
import SayLang.Proofs.StatementTrace
import SayLang.Proofs.ExactArithmetic
import SayLang.Proofs.WrittenBack
import SayLang.Proofs.Tariff
import SayLang.Proofs.Covering
import SayLang.Proofs.Braces
import SayLang.Proofs.NoCascade
import SayLang.Proofs.FirstError
import SayLang.Proofs.Reuse
import SayLang.Proofs.LineFeeds
import SayLang.Proofs.LineByLine
import SayLang.Proofs.InStep
import SayLang.Proofs.Trail
import SayLang.Proofs.LazyPulling
