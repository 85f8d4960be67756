import SayLang.Object
import SayLang.Syntax.Walk

/-!
# Evaluation

The value of a tree, computed node by node. Integers are calculated with exactly or answered by an
error; a condition counts as true unless it is the shared `false` or null. Operands that are not two
integers are compared by instance, and every other operator on them gives null. Names, declarations,
returns, functions and calls have no rule: each is recorded and answered by an error.

An error stands for a value. A list of statements stops at the first one; operators and conditions
take it like any other operand.
-/

namespace SayLang

/-- A computation on objects that records the nodes without a rule. -/
abbrev Evaluation (α : Type) : Type := Traced Supply Node α

namespace Evaluation

/-! ## Operators -/

/-- An operator in front of an operand: `!` asks whether the operand counts as false, `-` negates an
integer. Everything else gives null. -/
def unary (operator : Token) (operand : Object) : Value :=
  match operator.kind with
  | .bang => .boolean (!operand.isTruthy)
  | .minus =>
    match operand.value with
    | .integer n => .checked (.negationOverflow n) n.neg?
    | _ => .null
  | _ => .null

/-- An operator between two integers. The kind of the token selects the operation, the text of the
token is quoted when the result is out of range. -/
def arithmetic (operator : Token) (left right : Integer) : Value :=
  let overflow := Fault.overflow left operator.literal right
  match operator.kind with
  | .plus => .checked overflow (left.add? right)
  | .minus => .checked overflow (left.sub? right)
  | .asterisk => .checked overflow (left.mul? right)
  | .slash =>
    if right.val = 0 then .ofFault .divisionByZero else .checked overflow (left.div? right)
  | .less => .boolean (left.val < right.val)
  | .greater => .boolean (right.val < left.val)
  | .equalEqual => .boolean (left.val = right.val)
  | .bangEqual => .boolean (left.val ≠ right.val)
  | _ => .null

/-- An operator between two operands. Two integers are calculated with; all others can only be asked
whether they are the same instance. -/
def binary (operator : Token) (left right : Object) : Value :=
  match left.value, right.value with
  | .integer l, .integer r => arithmetic operator l r
  | _, _ =>
    match operator.kind with
    | .equalEqual => .boolean (left.same right)
    | .bangEqual => .boolean (!left.same right)
    | _ => .null

/-- The answer of a node without a rule. -/
def unsupported (node : Node) : Evaluation Object := do
  Traced.record node
  Object.deliver (.ofFault .unsupported)

end Evaluation

/-! ## Trees -/

mutual

/-- The object an expression evaluates to. -/
def Expression.evaluate : Expression → Evaluation Object
  | .number _ value => Object.deliver (.integer value)
  | .boolean _ value => Object.deliver (.boolean value)
  | .unary operator operand => do
    let operand ← operand.evaluate
    Object.deliver (Evaluation.unary operator operand)
  | .binary left operator right => do
    let left ← left.evaluate
    let right ← right.evaluate
    Object.deliver (Evaluation.binary operator left right)
  | .ifThen _ condition consequence => do
    let condition ← condition.evaluate
    if condition.isTruthy then consequence.evaluate else Object.deliver .null
  | .ifElse _ condition consequence alternative => do
    let condition ← condition.evaluate
    if condition.isTruthy then consequence.evaluate else alternative.evaluate
  | .error _ message => Object.deliver (.error message)
  | node@(.identifier _) | node@(.function _ _ _) | node@(.call _ _ _) =>
    Evaluation.unsupported (.expression node)

/-- The object a statement evaluates to. -/
def Statement.evaluate : Statement → Evaluation Object
  | .expression _ value => value.evaluate
  | .block body => body.evaluate
  | node@(.say _ _ _) | node@(.bareReturn _) | node@(.returnOf _ _) =>
    Evaluation.unsupported (.statement node)

/-- The object a list of statements evaluates to, where `last` is what the statements before it
evaluated to: the first error met, else the last object. -/
def Statement.evaluateEach : List Statement → Object → Evaluation Object
  | [], last => return last
  | statement :: rest, _ => do
    let object ← statement.evaluate
    if object.value.isError then return object else Statement.evaluateEach rest object

/-- The object a block evaluates to; null when it is empty. -/
def Block.evaluate : Block → Evaluation Object
  | .mk _ statements => Statement.evaluateEach statements (.shared .null)

end

/-- The object a list of statements evaluates to: the first error met, else the last object, and
null when the list is empty. -/
def evaluateStatements (statements : List Statement) : Evaluation Object :=
  Statement.evaluateEach statements (.shared .null)

/-- The object a program evaluates to. -/
def Program.evaluate (program : Program) : Evaluation Object :=
  evaluateStatements program.statements

/-- The object a node evaluates to. -/
def Node.evaluate : Node → Evaluation Object
  | program p => p.evaluate
  | statement s => s.evaluate
  | block b => b.evaluate
  | expression e => e.evaluate

/-- The value of a node, evaluated on its own. -/
def Node.value (node : Node) : Value := (node.evaluate.run ⟨0⟩).value.value

end SayLang
