import SayLang.Evaluation
import SayLang.Parser.Climb

/-!
# The log

What a run reports about itself, apart from its result: records with a severity, the part of the
program they come from, and a message. A threshold lets through the records that are at least as
severe. The parser reports each statement it enters and each diagnostic; evaluation reports each
node without a rule.
-/

namespace SayLang.Log

/-- How much a record matters, the gravest first. -/
inductive Severity where
  /-- Something failed. -/
  | error
  /-- Something looks wrong. -/
  | warn
  /-- A step of the run. -/
  | info
  /-- What a developer may want to see. -/
  | debug
  /-- Every detail. -/
  | trace
deriving DecidableEq

/-- The place of a severity, counted from the gravest. -/
def Severity.rank : Severity → Nat
  | error => 1
  | warn => 2
  | info => 3
  | debug => 4
  | trace => 5

/-- The severity as the log writes it. -/
def Severity.name : Severity → String
  | error => "ERROR"
  | warn => "WARN"
  | info => "INFO"
  | debug => "DEBUG"
  | trace => "TRACE"

/-- The least severity that is still written; none when nothing is. -/
abbrev Threshold : Type := Option Severity

/-- Is a record of this severity written? -/
def Threshold.passes (threshold : Threshold) (severity : Severity) : Bool :=
  match threshold with
  | none => false
  | some least => severity.rank ≤ least.rank

/-- The threshold that a word names, in upper or lower case. -/
def Threshold.ofWord? (word : String) : Option Threshold :=
  match String.ofList (word.toList.map Char.toLower) with
  | "off" => some none
  | "error" => some (some .error)
  | "warn" => some (some .warn)
  | "info" => some (some .info)
  | "debug" => some (some .debug)
  | "trace" => some (some .trace)
  | _ => none

/-- One entry of the log. -/
structure Record where
  /-- How much it matters. -/
  severity : Severity
  /-- The part of the program it comes from. -/
  target : String
  /-- What it says. -/
  message : String
deriving DecidableEq

/-- The records that a threshold lets through, in order. -/
def filter (threshold : Threshold) (records : List Record) : List Record :=
  records.filter fun record => threshold.passes record.severity

/-! ## Who reports what -/

/-- Where the records of parsing come from. -/
def parserTarget : String := "sayer::parser"

/-- Where the records of a run come from. -/
def runTarget : String := "sayer::sayer"

/-- Where the records of evaluation come from. -/
def evaluationTarget : String := "sayer::interpreter"

/-- What the log says of an event of parsing: statements entered and diagnostics. -/
def ofEvent? : Event → Option Record
  | .statement _ token =>
    some ⟨.trace, parserTarget,
      "statement at line " ++ toString token.line ++ ": " ++ token.kind.name⟩
  | .diagnostic _ found => some ⟨.debug, parserTarget, found.text⟩
  | .expression _ => none

/-- What the log says of a node without a rule. -/
def ofUnsupported (node : Node) : Record :=
  ⟨.trace, evaluationTarget, "no evaluation rule for " ++ node.render⟩

/-- What the log says before a file is read. -/
def running (path : String) : Record := ⟨.info, runTarget, "running " ++ path⟩

/-- What the log says of a program parsed without diagnostics. -/
def parsed (program : Program) : Record :=
  ⟨.debug, runTarget, "parsed program:\n" ++ program.render⟩

/-! ## Writing the log to a terminal -/

/-- The colour of a severity, as a terminal numbers it. -/
def Severity.colour : Severity → String
  | error => "31"
  | warn => "33"
  | info => "32"
  | debug => "34"
  | trace => "35"

/-- A record as a line of a terminal, the severity in colour. -/
def Record.line (record : Record) : String :=
  "[\x1b[" ++ record.severity.colour ++ "m" ++ record.severity.name ++ "\x1b[0m " ++
    record.target ++ "] " ++ record.message ++ "\n"

end SayLang.Log
