import SayLang.Parser.Grammar

/-!
# Tying the grammar together

Expressions are parsed by precedence climbing: first the form that the current token opens, then, as
long as the operator ahead binds tighter than a given floor, that operator with what follows it,
folded into the left side. Operands, arguments and branches are parsed by the same functions again.

The functions recurse on a number, the fuel, which every recursive call lowers by one. Each call
sits behind a token consumed, or goes from a block to its first statement, from there to its
expression, and from there to what continues it, so `Cursor.ahead` plus three is enough and the
fuel never runs out. (Where it did, an expression would be reported at its first token.)
-/

namespace SayLang.Parse

variable {κ : Type} [Cursor κ]

mutual

/-- An expression that ends in front of the first operator that does not bind tighter than
`floor`. A token that opens no form is reported, and the expression ends there. -/
def expression : Nat → Precedence → Parse κ Expression
  | 0, _ => reject fun token => .noExpression token.kind
  | fuel + 1, floor => do
    Traced.record (.expression (← position))
    let token ← current
    match opening? (expression fuel) (parameters fuel) (block (blockStatements fuel)) token.kind with
    | none => reject fun token => .noExpression token.kind
    | some opening => climb fuel floor (← opening)

/-- Folds the operators ahead that bind tighter than `floor` into the left side. -/
def climb : Nat → Precedence → Expression → Parse κ Expression
  | 0, _, left => return left
  | fuel + 1, floor, left => do
    let next ← peek
    if floor < next.kind.precedence then
      advance
      let folded ← continuation (expression fuel) (moreArguments fuel) next.kind left
      climb fuel floor folded
    else
      return left

/-- Further arguments, each after a comma. -/
def moreArguments : Nat → Parse κ (List Expression)
  | 0 => return []
  | fuel + 1 => do
    if (← peek).kind = .comma then
      advance
      advance
      let next ← expression fuel .lowest
      return next :: (← moreArguments fuel)
    else
      return []

/-- The statements up to the closing brace. The end of input in its place is reported. -/
def blockStatements : Nat → Parse κ (List Statement)
  | 0 => return []
  | fuel + 1 => do
    match (← current).kind with
    | .rightBrace => return []
    | .eof =>
      let _ ← reject fun token => .unexpected .rightBrace token.kind
      return []
    | _ =>
      let first ← statement (expression fuel .lowest)
      advance
      return first.toList ++ (← blockStatements fuel)

end

/-- In front of an operator that does not bind tighter nothing is folded, whatever the fuel. -/
theorem run_climb_of_not_lt {fuel : Nat} {floor : Precedence} {cursor : κ} (left : Expression)
    (h : ¬ floor < (Cursor.peek cursor).kind.precedence) :
    (climb fuel floor left).run cursor = ⟨left, cursor, []⟩ := by
  cases fuel with
  | zero => rfl
  | succ fuel => simp [climb, h]

/-- Without a comma ahead no further arguments are read, whatever the fuel. -/
theorem run_moreArguments_of_ne {fuel : Nat} {cursor : κ}
    (h : (Cursor.peek cursor).kind ≠ .comma) :
    (moreArguments fuel).run cursor = ⟨[], cursor, []⟩ := by
  cases fuel with
  | zero => rfl
  | succ fuel => simp [moreArguments, h]

/-- The statements up to the end of input. -/
def statements : Nat → Parse κ (List Statement)
  | 0 => return []
  | fuel + 1 => do
    if (← current).kind = .eof then
      return []
    else
      let first ← statement (expression fuel .lowest)
      advance
      return first.toList ++ (← statements fuel)

/-- At the end of input no statements are read, whatever the fuel. -/
theorem run_statements_of_eof {fuel : Nat} {cursor : κ}
    (h : (Cursor.current cursor).kind = .eof) :
    (statements fuel).run cursor = ⟨[], cursor, []⟩ := by
  cases fuel with
  | zero => rfl
  | succ fuel => simp [statements, h]

/-- Before the end of input a statement is parsed and then the others. -/
theorem run_statements_of_ne {fuel : Nat} {cursor : κ} (h : (Cursor.current cursor).kind ≠ .eof) :
    (statements (fuel + 1)).run cursor =
      ⟨((statement (expression fuel .lowest)).run cursor).value.toList ++
          ((statements fuel).run
            (Cursor.advance ((statement (expression fuel .lowest)).run cursor).state)).value,
        ((statements fuel).run
          (Cursor.advance ((statement (expression fuel .lowest)).run cursor).state)).state,
        ((statement (expression fuel .lowest)).run cursor).events ++
          ((statements fuel).run
            (Cursor.advance ((statement (expression fuel .lowest)).run cursor).state)).events⟩ := by
  rw [statements, Traced.run_bind, run_current, if_neg h]
  simp only [Traced.run_bind, run_advance, Traced.run_pure, List.nil_append, List.append_nil]

/-- A whole program, from the token looked at to the end of input. -/
def program : Parse κ Program := do
  let ahead ← Traced.look Cursor.ahead
  return ⟨← statements (ahead + 3)⟩

end SayLang.Parse

namespace SayLang

/-- What parsing answers: the program, and what happened on the way. -/
structure Parsed where
  /-- The tree. -/
  program : Program
  /-- What happened, in order. -/
  events : List Event

/-- What was found wrong, in order. -/
def Parsed.diagnostics (parsed : Parsed) : List Diagnostic :=
  parsed.events.filterMap Event.diagnostic?

/-- Parses from a cursor to the end of input. -/
def parseFrom {κ : Type} [Cursor κ] (cursor : κ) : Parsed :=
  let result := Parse.program.run cursor
  ⟨result.value, result.events⟩

/-- Parses a source text, cutting tokens as they are needed. -/
def parse (source : String) : Parsed := parseFrom (Window.ofSource source)

/-- Parses a list of tokens that was cut beforehand. -/
def parseTokens (tokens : List Token) : Parsed := parseFrom (Strip.ofTokens tokens)

/-! ## What parsing answers -/

section answer

variable {κ : Type} [Cursor κ]

/-- The statements of a program are parsed with fuel for the tokens ahead. -/
theorem run_program (cursor : κ) :
    Parse.program.run cursor =
      ⟨⟨((Parse.statements (Cursor.ahead cursor + 3)).run cursor).value⟩,
        ((Parse.statements (Cursor.ahead cursor + 3)).run cursor).state,
        ((Parse.statements (Cursor.ahead cursor + 3)).run cursor).events⟩ := by
  simp [Parse.program]

theorem statements_parseFrom (cursor : κ) :
    (parseFrom cursor).program.statements =
      ((Parse.statements (Cursor.ahead cursor + 3)).run cursor).value := by
  rw [parseFrom, run_program]

theorem diagnostics_parseFrom (cursor : κ) :
    (parseFrom cursor).diagnostics =
      ((Parse.statements (Cursor.ahead cursor + 3)).run cursor).events.filterMap
        Event.diagnostic? := by
  rw [Parsed.diagnostics, parseFrom, run_program]

end answer

end SayLang
