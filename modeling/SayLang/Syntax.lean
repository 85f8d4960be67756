import SayLang.Integer
import SayLang.Token

/-!
# Syntax trees

Three mutually nested sorts: expressions, statements, and blocks of statements in braces. Every
node keeps the token it was read from, so a tree remembers lines and spellings.

The types allow more trees than the parser builds. Any token may stand as an operator, the value of
a number need not be what its token spells, and a block may stand as a statement. Rendering and
evaluation are defined on all of them. An `Expression.error` stands where an expression was broken.
-/

namespace SayLang

/-- A name together with the token it was read from. -/
structure Name where
  /-- The token. -/
  token : Token
  /-- The name itself. -/
  text : String
deriving DecidableEq

/-- The name that a token spells. -/
def Name.ofToken (token : Token) : Name := ⟨token, token.literal⟩

mutual

/-- An expression. -/
inductive Expression where
  /-- A name used as a value. -/
  | identifier (name : Name)
  /-- An integer literal. -/
  | number (token : Token) (value : Integer)
  /-- A literal `true` or `false`. -/
  | boolean (token : Token) (value : Bool)
  /-- An operator in front of its operand. -/
  | unary (operator : Token) (operand : Expression)
  /-- An operator between its operands. -/
  | binary (left : Expression) (operator : Token) (right : Expression)
  /-- A conditional with one branch. -/
  | ifThen (token : Token) (condition : Expression) (consequence : Block)
  /-- A conditional with two branches. -/
  | ifElse (token : Token) (condition : Expression) (consequence alternative : Block)
  /-- A function of some parameters. -/
  | function (token : Token) (parameters : List Name) (body : Block)
  /-- A call; the token is its opening parenthesis. -/
  | call (token : Token) (callee : Expression) (arguments : List Expression)
  /-- The place of a broken expression, with what was wrong at the token. -/
  | error (token : Token) (message : String)

/-- A statement. -/
inductive Statement where
  /-- An expression for its value; the token is its first one. -/
  | expression (token : Token) (value : Expression)
  /-- The declaration of a name; the token is the keyword. -/
  | say (token : Token) (name : Name) (value : Expression)
  /-- A return without a value. -/
  | bareReturn (token : Token)
  /-- A return of a value. -/
  | returnOf (token : Token) (value : Expression)
  /-- A block in the place of a statement. -/
  | block (body : Block)

/-- Statements in braces; the token is the opening brace. -/
inductive Block where
  /-- A block from its brace and its statements. -/
  | mk (token : Token) (statements : List Statement)

end

/-- The opening brace. -/
def Block.token : Block → Token
  | mk token _ => token

/-- The statements between the braces. -/
def Block.statements : Block → List Statement
  | mk _ statements => statements

/-- A whole program. -/
structure Program where
  /-- Its statements, in order. -/
  statements : List Statement

/-! ## The token of a node -/

/-- The token an expression is known by: its operator for an operation, its first token for most
other expressions. -/
def Expression.token : Expression → Token
  | identifier name => name.token
  | number token _ | boolean token _ | ifThen token _ _ | ifElse token _ _ _
  | function token _ _ | call token _ _ | error token _ => token
  | unary operator _ | binary _ operator _ => operator

/-- The token a statement is known by. -/
def Statement.token : Statement → Token
  | expression token _ | say token _ _ | bareReturn token | returnOf token _ => token
  | block body => body.token

/-- The text of the first statement's token; empty for an empty program. -/
def Program.literal (program : Program) : String :=
  match program.statements with
  | [] => ""
  | statement :: _ => statement.token.literal

/-! ## Questions about a node -/

/-- Does the expression stand for a broken one? -/
def Expression.isError : Expression → Bool
  | error _ _ => true
  | _ => false

/-- Does the statement declare a name never to change? -/
def Statement.isInvariant : Statement → Bool
  | say token _ _ => token.kind = .invarWord
  | _ => false

end SayLang
