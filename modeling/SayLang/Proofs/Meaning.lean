import SayLang.Syntax
import SayLang.Value

/-!
# The meaning of a tree

What a tree evaluates to, told by values alone. There are no instances here, nothing is allocated,
and whole numbers are calculated with exactly before anybody asks for their range.

- A condition and `!` take `false` and null for false and all else for true.
- Between two integers an operator gives the exact result, or the fault that it has none.
- Between other operands `==` holds of one boolean and of null with itself, and of nothing else: no
  error equals an error.
- A list of statements means the first error among its statements, or else its last value.

Evaluation, which deals in instances, agrees with this; it is shown where evaluation is followed.
-/

namespace SayLang

/-! ## Values -/

namespace Value

/-- Does the value count as true in a condition? -/
def countsAsTrue : Value → Bool
  | boolean b => b
  | null => false
  | integer _ | error _ => true

/-- Does `==` hold of two values that are not both integers? -/
def equals : Value → Value → Bool
  | boolean b, boolean c => b = c
  | null, null => true
  | _, _ => false

/-- A whole number as a value, or the fault to answer when it is out of range. -/
def ofExact (fault : Fault) (n : Int) : Value :=
  if h : Integer.InRange n then integer (.ofInRange n h) else ofFault fault

/-- What statements amount to, given what each of them means: the first error, or else the last
value, or `before` when there are none. -/
def conclude (before : Value) (values : List Value) : Value :=
  (values.find? isError).getD (values.getLastD before)

end Value

/-! ## Operators -/

/-- The exact result of an arithmetic operator. A quotient is rounded toward zero. -/
def Kind.exact? : Kind → Int → Int → Option Int
  | plus, l, r => some (l + r)
  | minus, l, r => some (l - r)
  | asterisk, l, r => some (l * r)
  | slash, l, r => some (l.tdiv r)
  | _, _, _ => none

/-- What a comparison says of two whole numbers. -/
def Kind.compared? : Kind → Int → Int → Option Bool
  | less, l, r => some (l < r)
  | greater, l, r => some (l > r)
  | equalEqual, l, r => some (l = r)
  | bangEqual, l, r => some (l ≠ r)
  | _, _, _ => none

namespace Value

/-- An operator in front of an operand. -/
def unary (operator : Token) (operand : Value) : Value :=
  match operator.kind, operand with
  | .bang, _ => boolean (!operand.countsAsTrue)
  | .minus, integer n => ofExact (.negationOverflow n) (-n.val)
  | _, _ => null

/-- An operator between two integers. -/
def arithmetic (operator : Token) (l r : Integer) : Value :=
  if operator.kind = .slash ∧ r.val = 0 then ofFault .divisionByZero
  else
    match operator.kind.exact? l.val r.val with
    | some n => ofExact (.overflow l operator.literal r) n
    | none => ((operator.kind.compared? l.val r.val).map boolean).getD null

/-- An operator between two operands. -/
def binary (operator : Token) : Value → Value → Value
  | integer l, integer r => arithmetic operator l r
  | left, right =>
    match operator.kind with
    | .equalEqual => boolean (left.equals right)
    | .bangEqual => boolean (!left.equals right)
    | _ => null

end Value

namespace Value

theorem ofExact_of_inRange (fault : Fault) {n : Int} (h : Integer.InRange n) :
    ofExact fault n = integer (.ofInRange n h) := dif_pos h

theorem unary_integer {operator : Token} (hk : operator.kind = .minus) (v : Integer) :
    unary operator (integer v) = ofExact (.negationOverflow v) (-v.val) := by
  unfold unary
  rw [hk]

end Value

/-! ## Trees -/

mutual

/-- What an expression means. -/
def Expression.meaning : Expression → Value
  | .number _ value => .integer value
  | .boolean _ value => .boolean value
  | .unary operator operand => Value.unary operator operand.meaning
  | .binary left operator right => Value.binary operator left.meaning right.meaning
  | .ifThen _ condition consequence =>
    if condition.meaning.countsAsTrue then consequence.meaning else .null
  | .ifElse _ condition consequence alternative =>
    if condition.meaning.countsAsTrue then consequence.meaning else alternative.meaning
  | .error _ message => .error message
  | .identifier _ | .function _ _ _ | .call _ _ _ => .ofFault .unsupported

/-- What a statement means. -/
def Statement.meaning : Statement → Value
  | .expression _ value => value.meaning
  | .block body => body.meaning
  | .say _ _ _ | .bareReturn _ | .returnOf _ _ => .ofFault .unsupported

/-- What each statement of a list means. -/
def Statement.meaningOfEach : List Statement → List Value
  | [] => []
  | statement :: rest => statement.meaning :: Statement.meaningOfEach rest

/-- What a block means. -/
def Block.meaning : Block → Value
  | .mk _ statements => .conclude .null (Statement.meaningOfEach statements)

end

/-- What a program means. -/
def Program.meaning (program : Program) : Value :=
  .conclude .null (Statement.meaningOfEach program.statements)

/-! ## Lists of statements -/

namespace Value

@[simp] theorem conclude_nil (before : Value) : conclude before [] = before := rfl

theorem conclude_cons (before value : Value) (values : List Value) :
    conclude before (value :: values) = if value.isError then value else conclude value values := by
  unfold conclude
  rw [List.find?_cons, List.getLastD_cons]
  cases value.isError <;> rfl

/-- What stands before counts only for an empty list. -/
theorem conclude_of_ne_nil {values : List Value} (h : values ≠ []) (before : Value) :
    conclude before values = conclude null values := by
  obtain ⟨value, others, rfl⟩ := List.exists_cons_of_ne_nil h
  rw [conclude_cons, conclude_cons]

/-- Statements go on from what those before them amount to, unless that is an error. -/
theorem conclude_append {before : Value} (h : before.isError = false) (first second : List Value) :
    conclude before (first ++ second) =
      if (conclude before first).isError then conclude before first
      else conclude (conclude before first) second := by
  induction first generalizing before with
  | nil => simp [h]
  | cons value values ih =>
    rw [List.cons_append, conclude_cons, conclude_cons]
    cases hvalue : value.isError with
    | true => simp [hvalue]
    | false => simpa using ih hvalue

end Value

/-- A single expression is all that a program means. -/
theorem Program.meaning_expression (token : Token) (e : Expression) :
    Program.meaning ⟨[.expression token e]⟩ = e.meaning := by
  show Value.conclude .null [e.meaning] = e.meaning
  rw [Value.conclude_cons, Value.conclude_nil, ite_self]

theorem Statement.meaningOfEach_append (first second : List Statement) :
    meaningOfEach (first ++ second) = meaningOfEach first ++ meaningOfEach second := by
  induction first with
  | nil => simp [meaningOfEach]
  | cons _ _ ih => simp [meaningOfEach, ih]

end SayLang
