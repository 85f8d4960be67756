import SayLang.Syntax
import SayLang.Text.Quoted

/-!
# Rendering syntax trees

A tree is written in full parentheses, the head of each form first: `(+ 1 (* 2 3))`,
`(if c {1 2} else {})`, `(fun (x y) {x})`, `(call f 1)`, `(say x 5)`, `(return)`. Operators and
declarations are headed by the text of their token, numbers show their value, and an error shows its
message in quotes. Statements of a block are separated by a space, those of a program stand on lines
of their own.
-/

namespace SayLang

/-- Texts one after the other, a space between neighbours. -/
def spaced (texts : List String) : String := " ".intercalate texts

mutual

/-- An expression in full parentheses. -/
def Expression.render : Expression → String
  | .identifier name => name.text
  | .number _ value => value.text
  | .boolean _ value => if value then "true" else "false"
  | .unary operator operand => "(" ++ operator.literal ++ " " ++ operand.render ++ ")"
  | .binary left operator right =>
    "(" ++ operator.literal ++ " " ++ left.render ++ " " ++ right.render ++ ")"
  | .ifThen _ condition consequence =>
    "(if " ++ condition.render ++ " " ++ consequence.render ++ ")"
  | .ifElse _ condition consequence alternative =>
    "(if " ++ condition.render ++ " " ++ consequence.render ++ " else " ++ alternative.render ++ ")"
  | .function _ parameters body =>
    "(fun (" ++ spaced (parameters.map Name.text) ++ ") " ++ body.render ++ ")"
  | .call _ callee arguments =>
    "(call " ++ spaced (callee.render :: Expression.renderEach arguments) ++ ")"
  | .error _ message => "(error " ++ Text.quote message ++ ")"

/-- Each expression of a list. -/
def Expression.renderEach : List Expression → List String
  | [] => []
  | expression :: rest => expression.render :: Expression.renderEach rest

/-- A statement in full parentheses. -/
def Statement.render : Statement → String
  | .expression _ value => value.render
  | .say token name value => "(" ++ token.literal ++ " " ++ name.text ++ " " ++ value.render ++ ")"
  | .bareReturn _ => "(return)"
  | .returnOf _ value => "(return " ++ value.render ++ ")"
  | .block body => body.render

/-- Each statement of a list. -/
def Statement.renderEach : List Statement → List String
  | [] => []
  | statement :: rest => statement.render :: Statement.renderEach rest

/-- The statements of a block in braces. -/
def Block.render : Block → String
  | .mk _ statements => "\x7b" ++ spaced (Statement.renderEach statements) ++ "\x7d"

end

theorem Expression.renderEach_eq_map (expressions : List Expression) :
    renderEach expressions = expressions.map render := by
  induction expressions with
  | nil => simp [renderEach]
  | cons _ _ ih => simp [renderEach, ih]

theorem Statement.renderEach_eq_map (statements : List Statement) :
    renderEach statements = statements.map render := by
  induction statements with
  | nil => simp [renderEach]
  | cons _ _ ih => simp [renderEach, ih]

/-- A program, one statement a line. -/
def Program.render (program : Program) : String :=
  "\n".intercalate (program.statements.map Statement.render)

end SayLang
