import SayLang.Parser.Basic
import SayLang.Precedence

/-!
# The grammar

The forms of the language, each as one step of the parser that is given the parsers of its parts:

    program      ::=  statement*
    statement    ::=  ("say" | "invar") name "=" expression ";"?
                   |  "return" expression? ";"?
                   |  expression ";"?
    block        ::=  "{" statement* "}"
    expression   ::=  opening continuation*
    opening      ::=  name | number | "true" | "false" | ("!" | "-") expression
                   |  "(" expression ")"
                   |  "if" "(" expression ")" block ("else" block)?
                   |  "fun" "(" (name ("," name)*)? ")" block
    continuation ::=  ("==" | "!=" | "<" | ">" | "+" | "-" | "*" | "/") expression
                   |  "(" (expression ("," expression)*)? ")"

Parsing never gives up. A form that breaks becomes the error node for the token that broke it, and
the parser goes on after the last token consumed; a broken declaration is dropped as a whole.
-/

namespace SayLang.Parse

variable {κ : Type} [Cursor κ]

/-! ## Openings of an expression -/

/-- A name used as a value. -/
def identifier : Parse κ Expression := return .identifier (← name)

/-- An integer literal. Digits that denote a number out of range are reported. -/
def number : Parse κ Expression := do
  let token ← current
  match Integer.ofDigits? token.literal with
  | some value => return .number token value
  | none => reject fun token => .notAnInteger token.literal

/-- A literal `true` or `false`. -/
def boolean : Parse κ Expression := do
  let token ← current
  return .boolean token (token.kind = .trueWord)

/-- An operator in front of its operand. -/
def unary (operand : Parse κ Expression) : Parse κ Expression := do
  let operator ← current
  advance
  return .unary operator (← operand)

/-- An expression in parentheses, which leave no trace in the tree. -/
def group (expression : Parse κ Expression) : Parse κ Expression := do
  advance
  let inner ← expression
  expecting .rightParen id do
    return inner

/-- A block, given the parser of the statements up to its closing brace. -/
def block (statements : Parse κ (List Statement)) : Parse κ Block := do
  let token ← current
  advance
  return .mk token (← statements)

/-- A conditional, with or without the other branch. -/
def conditional (expression : Parse κ Expression) (block : Parse κ Block) :
    Parse κ Expression := do
  let token ← current
  expecting .leftParen id do
    advance
    let condition ← expression
    expecting .rightParen id do
      expecting .leftBrace id do
        let consequence ← block
        if (← peek).kind = .elseWord then
          advance
          expecting .leftBrace id do
            return .ifElse token condition consequence (← block)
        else
          return .ifThen token condition consequence

/-- Further names, each after a comma, at most `fuel` of them. -/
def moreNames : Nat → Parse κ (Except Expression (List Name))
  | 0 => return .ok []
  | fuel + 1 => do
    if (← peek).kind = .comma then
      advance
      expecting .identifier .error do
        let next ← name
        return (← moreNames fuel).map (next :: ·)
    else
      return .ok []

/-- Without a comma ahead no further names are read, whatever the fuel. -/
theorem run_moreNames_of_ne {fuel : Nat} {cursor : κ} (h : (Cursor.peek cursor).kind ≠ .comma) :
    (moreNames fuel).run cursor = ⟨.ok [], cursor, []⟩ := by
  cases fuel with
  | zero => rfl
  | succ fuel => simp [moreNames, h]

/-- The parameters of a function: names between parentheses. -/
def parameters (fuel : Nat) : Parse κ (Except Expression (List Name)) := do
  if (← peek).kind = .rightParen then
    advance
    return .ok []
  else
    expecting .identifier .error do
      let first ← name
      match ← moreNames fuel with
      | .error broken => return .error broken
      | .ok rest =>
        expecting .rightParen .error do
          return .ok (first :: rest)

/-- A function. -/
def function (parameters : Parse κ (Except Expression (List Name))) (block : Parse κ Block) :
    Parse κ Expression := do
  let token ← current
  expecting .leftParen id do
    match ← parameters with
    | .error broken => return broken
    | .ok names =>
      expecting .leftBrace id do
        return .function token names (← block)

/-- The form that a token of the given kind opens, if it opens one. -/
def opening? (expression : Precedence → Parse κ Expression)
    (parameters : Parse κ (Except Expression (List Name))) (block : Parse κ Block) :
    Kind → Option (Parse κ Expression)
  | .identifier => some identifier
  | .number => some number
  | .trueWord | .falseWord => some boolean
  | .bang | .minus => some (unary (expression .unary))
  | .leftParen => some (group (expression .lowest))
  | .ifWord => some (conditional (expression .lowest) block)
  | .funWord => some (function parameters block)
  | _ => none

/-! ## Continuations of an expression -/

/-- An operator and its right operand, which binds tighter than the operator: operators of one
precedence group to the left. -/
def binary (expression : Precedence → Parse κ Expression) (left : Expression) :
    Parse κ Expression := do
  let operator ← current
  advance
  return .binary left operator (← expression operator.kind.precedence)

/-- The arguments of a call: expressions between parentheses. -/
def arguments (expression : Parse κ Expression) (more : Parse κ (List Expression)) :
    Parse κ (Except Expression (List Expression)) := do
  if (← peek).kind = .rightParen then
    advance
    return .ok []
  else
    advance
    let first ← expression
    let rest ← more
    expecting .rightParen .error do
      return .ok (first :: rest)

/-- A call of the expression on the left. -/
def call (arguments : Parse κ (Except Expression (List Expression))) (callee : Expression) :
    Parse κ Expression := do
  let token ← current
  match ← arguments with
  | .error broken => return broken
  | .ok arguments => return .call token callee arguments

/-- The continuation that a token of the given kind opens behind `left`: a call behind an opening
parenthesis, an operator with its right operand otherwise. -/
def continuation (expression : Precedence → Parse κ Expression) (more : Parse κ (List Expression))
    (kind : Kind) (left : Expression) : Parse κ Expression :=
  if kind = .leftParen then call (arguments (expression .lowest) more) left
  else binary expression left

/-! ## Statements -/

/-- A declaration; dropped when the name or the equals sign is missing. -/
def declaration (expression : Parse κ Expression) : Parse κ (Option Statement) := do
  let token ← current
  expecting .identifier (fun _ => none) do
    let declared ← name
    expecting .assign (fun _ => none) do
      advance
      let value ← expression
      optionalSemicolon
      return some (.say token declared value)

/-- A return. It has no value when a semicolon, a closing brace or the end of input is ahead. -/
def returning (expression : Parse κ Expression) : Parse κ Statement := do
  let token ← current
  let next ← peek
  if next.kind = .semicolon ∨ next.kind = .rightBrace ∨ next.kind = .eof then
    optionalSemicolon
    return .bareReturn token
  else
    advance
    let value ← expression
    optionalSemicolon
    return .returnOf token value

/-- An expression as a statement. -/
def expressionStatement (expression : Parse κ Expression) : Parse κ Statement := do
  let token ← current
  let value ← expression
  optionalSemicolon
  return .expression token value

/-- A statement, unless it is a broken declaration. -/
def statement (expression : Parse κ Expression) : Parse κ (Option Statement) := do
  let token ← current
  Traced.record (.statement (← position) token)
  match token.kind with
  | .sayWord | .invarWord => declaration expression
  | .returnWord => return some (← returning expression)
  | _ => return some (← expressionStatement expression)

end SayLang.Parse
