import SayLang.Token

/-!
# Diagnostics of the parser

A diagnostic says what is wrong at a token and on which line the token stands. Its wording lives
here alone; the error node that takes the place of a broken expression carries the same message
without the line.
-/

namespace SayLang

/-- What can be wrong with a token. -/
inductive Problem where
  /-- No expression starts with a token of this kind. -/
  | noExpression (kind : Kind)
  /-- One kind of token had to follow, another one does. -/
  | unexpected (expected found : Kind)
  /-- The digits denote a number out of range. -/
  | notAnInteger (literal : String)
deriving DecidableEq

/-- The wording of a problem. -/
def Problem.message : Problem → String
  | noExpression kind => "No prefix parse function for " ++ kind.text
  | unexpected expected found =>
    "Expected next token to be " ++ expected.text ++ ", got " ++ found.text ++ " instead"
  | notAnInteger literal => "Could not parse " ++ literal ++ " as integer"

/-- A problem and the line of the token that has it. -/
structure Diagnostic where
  /-- The line of the token. -/
  line : Nat
  /-- What is wrong with it. -/
  problem : Problem
deriving DecidableEq

/-- The wording of a diagnostic: the line, then the problem. -/
def Diagnostic.text (diagnostic : Diagnostic) : String :=
  "line " ++ toString diagnostic.line ++ ": " ++ diagnostic.problem.message

end SayLang
