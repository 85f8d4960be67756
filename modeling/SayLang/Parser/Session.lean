import SayLang.Parser.Climb

/-!
# A parser used repeatedly

A `Session` is a parser that stays where it stopped. It is asked for programs and for the
diagnostics found so far, in any order and as often as one likes. The first program takes all of the
source; what is left for later ones is the end of input.
-/

namespace SayLang

/-- A parser between two requests. -/
structure Session where
  /-- Where it stopped. -/
  window : Window
  /-- What it found wrong so far, in order. -/
  diagnostics : List Diagnostic

namespace Session

/-- A parser at the start of a source text. -/
def ofSource (source : String) : Session := ⟨Window.ofSource source, []⟩

/-- The program from where the parser stands to the end of input, and the parser after it. -/
def parseProgram (session : Session) : Program × Session :=
  let result := Parse.program.run session.window
  (result.value,
    ⟨result.state, session.diagnostics ++ result.events.filterMap Event.diagnostic?⟩)

/-- What can be asked of a parser. -/
inductive Request where
  /-- A program. -/
  | parse
  /-- The diagnostics found so far. -/
  | errors
deriving DecidableEq

/-- What a parser answers. -/
inductive Reply where
  /-- The program, and the diagnostics found until then. -/
  | parsed (program : Program) (soFar : List Diagnostic)
  /-- The diagnostics found so far. -/
  | errors (soFar : List Diagnostic)

/-- The answer to one request, and the parser after it. -/
def answer (session : Session) : Request → Reply × Session
  | .parse =>
    let after := session.parseProgram
    (.parsed after.1 after.2.diagnostics, after.2)
  | .errors => (.errors session.diagnostics, session)

/-- The answers to requests, one after the other, and the parser after the last. -/
def answerAll (session : Session) : List Request → List Reply × Session
  | [] => ([], session)
  | request :: rest =>
    let first := session.answer request
    let others := first.2.answerAll rest
    (first.1 :: others.1, others.2)

end Session

end SayLang
