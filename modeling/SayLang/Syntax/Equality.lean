import SayLang.Syntax

/-!
# Equality of syntax trees is decidable

Two trees are compared node by node, tokens with their lines included. The comparison answers
`true` exactly for equal trees.

> `Expression.matches_iff`: `a.matches b = true ↔ a = b`, and likewise for the other sorts.
-/

namespace SayLang

mutual

/-- Are two expressions equal, node by node? -/
def Expression.matches : Expression → Expression → Bool
  | .identifier name, .identifier name' => name = name'
  | .number token value, .number token' value' => token = token' && value = value'
  | .boolean token value, .boolean token' value' => token = token' && value = value'
  | .unary operator operand, .unary operator' operand' =>
    operator = operator' && operand.matches operand'
  | .binary left operator right, .binary left' operator' right' =>
    left.matches left' && operator = operator' && right.matches right'
  | .ifThen token condition consequence, .ifThen token' condition' consequence' =>
    token = token' && condition.matches condition' && consequence.matches consequence'
  | .ifElse token condition consequence alternative,
      .ifElse token' condition' consequence' alternative' =>
    token = token' && condition.matches condition' && consequence.matches consequence' &&
      alternative.matches alternative'
  | .function token parameters body, .function token' parameters' body' =>
    token = token' && parameters = parameters' && body.matches body'
  | .call token callee arguments, .call token' callee' arguments' =>
    token = token' && callee.matches callee' && Expression.matchesEach arguments arguments'
  | .error token message, .error token' message' => token = token' && message = message'
  | _, _ => false

/-- Are two lists of expressions equal, one by one? -/
def Expression.matchesEach : List Expression → List Expression → Bool
  | [], [] => true
  | expression :: rest, expression' :: rest' =>
    expression.matches expression' && Expression.matchesEach rest rest'
  | _, _ => false

/-- Are two statements equal, node by node? -/
def Statement.matches : Statement → Statement → Bool
  | .expression token value, .expression token' value' => token = token' && value.matches value'
  | .say token name value, .say token' name' value' =>
    token = token' && name = name' && value.matches value'
  | .bareReturn token, .bareReturn token' => token = token'
  | .returnOf token value, .returnOf token' value' => token = token' && value.matches value'
  | .block body, .block body' => body.matches body'
  | _, _ => false

/-- Are two lists of statements equal, one by one? -/
def Statement.matchesEach : List Statement → List Statement → Bool
  | [], [] => true
  | statement :: rest, statement' :: rest' =>
    statement.matches statement' && Statement.matchesEach rest rest'
  | _, _ => false

/-- Are two blocks equal, node by node? -/
def Block.matches : Block → Block → Bool
  | .mk token statements, .mk token' statements' =>
    token = token' && Statement.matchesEach statements statements'

end

mutual

theorem Expression.matches_iff : ∀ a b : Expression, a.matches b = true ↔ a = b
  | .identifier _, b => by cases b <;> simp [Expression.matches]
  | .number _ _, b => by cases b <;> simp [Expression.matches]
  | .boolean _ _, b => by cases b <;> simp [Expression.matches]
  | .unary _ operand, b => by
    cases b <;> simp [Expression.matches, Expression.matches_iff operand]
  | .binary left _ right, b => by
    cases b <;>
      simp [Expression.matches, Expression.matches_iff left, Expression.matches_iff right,
        and_assoc]
  | .ifThen _ condition consequence, b => by
    cases b <;>
      simp [Expression.matches, Expression.matches_iff condition, Block.matches_iff consequence,
        and_assoc]
  | .ifElse _ condition consequence alternative, b => by
    cases b <;>
      simp [Expression.matches, Expression.matches_iff condition, Block.matches_iff consequence,
        Block.matches_iff alternative, and_assoc]
  | .function _ _ body, b => by
    cases b <;> simp [Expression.matches, Block.matches_iff body, and_assoc]
  | .call _ callee arguments, b => by
    cases b <;>
      simp [Expression.matches, Expression.matches_iff callee, Expression.matchesEach_iff arguments,
        and_assoc]
  | .error _ _, b => by cases b <;> simp [Expression.matches]

theorem Expression.matchesEach_iff :
    ∀ as bs : List Expression, Expression.matchesEach as bs = true ↔ as = bs
  | [], bs => by cases bs <;> simp [Expression.matchesEach]
  | a :: as, bs => by
    cases bs <;>
      simp [Expression.matchesEach, Expression.matches_iff a, Expression.matchesEach_iff as]

theorem Statement.matches_iff : ∀ a b : Statement, a.matches b = true ↔ a = b
  | .expression _ value, b => by cases b <;> simp [Statement.matches, Expression.matches_iff value]
  | .say _ _ value, b => by
    cases b <;> simp [Statement.matches, Expression.matches_iff value, and_assoc]
  | .bareReturn _, b => by cases b <;> simp [Statement.matches]
  | .returnOf _ value, b => by cases b <;> simp [Statement.matches, Expression.matches_iff value]
  | .block body, b => by cases b <;> simp [Statement.matches, Block.matches_iff body]

theorem Statement.matchesEach_iff :
    ∀ as bs : List Statement, Statement.matchesEach as bs = true ↔ as = bs
  | [], bs => by cases bs <;> simp [Statement.matchesEach]
  | a :: as, bs => by
    cases bs <;>
      simp [Statement.matchesEach, Statement.matches_iff a, Statement.matchesEach_iff as]

theorem Block.matches_iff : ∀ a b : Block, a.matches b = true ↔ a = b
  | .mk _ statements, .mk _ _ => by
    simp [Block.matches, Statement.matchesEach_iff statements]

end

instance : DecidableEq Expression := fun a b => decidable_of_iff _ (Expression.matches_iff a b)

instance : DecidableEq Statement := fun a b => decidable_of_iff _ (Statement.matches_iff a b)

instance : DecidableEq Block := fun a b => decidable_of_iff _ (Block.matches_iff a b)

instance : DecidableEq Program := fun a b =>
  decidable_of_iff (a.statements = b.statements) (by cases a; cases b; simp)

end SayLang
