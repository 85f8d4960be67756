import SayLang.Evaluation
import SayLang.Proofs.Formation
import SayLang.Syntax.Equality

/-!
# Operators of a parsed tree are known

Evaluation is defined on all trees, also on those with a token for an operator that is none; the
answer is null then. `Program.evaluateOr unknown` is the same evaluation with another answer in
those places. On trees that are parsed from a text, right or wrong, the two are one: whatever would
be answered for an operator that is none, it never is.

> `evaluateOr_null`: with null for that answer it is the evaluation.
> `nodes_formed_and_operators_known`: all nodes of a parsed tree are of the kinds that their tokens
> say, and so all answers give the same evaluation.
-/

namespace SayLang

namespace Evaluation

/-- An operator in front of an operand. For anything but `!` and `-` the answer is `unknown`. -/
def unaryOr (unknown : Value) (operator : Token) (operand : Object) : Value :=
  if operator.kind = .bang ∨ operator.kind = .minus then unary operator operand else unknown

/-- An operator between two operands. For anything but an operator between operands the answer is
`unknown`. -/
def binaryOr (unknown : Value) (operator : Token) (left right : Object) : Value :=
  if Grammar.IsBinary operator.kind then binary operator left right else unknown

end Evaluation

mutual

/-- The object an expression evaluates to, with `unknown` for operators that are none. -/
def Expression.evaluateOr (unknown : Value) : Expression → Evaluation Object
  | .unary operator operand => do
    let operand ← operand.evaluateOr unknown
    Object.deliver (Evaluation.unaryOr unknown operator operand)
  | .binary left operator right => do
    let left ← left.evaluateOr unknown
    let right ← right.evaluateOr unknown
    Object.deliver (Evaluation.binaryOr unknown operator left right)
  | .ifThen _ condition consequence => do
    let condition ← condition.evaluateOr unknown
    if condition.isTruthy then consequence.evaluateOr unknown else Object.deliver .null
  | .ifElse _ condition consequence alternative => do
    let condition ← condition.evaluateOr unknown
    if condition.isTruthy then consequence.evaluateOr unknown else alternative.evaluateOr unknown
  | node@(.number _ _) | node@(.boolean _ _) | node@(.error _ _) | node@(.identifier _)
  | node@(.function _ _ _) | node@(.call _ _ _) => node.evaluate

/-- The object a statement evaluates to. -/
def Statement.evaluateOr (unknown : Value) : Statement → Evaluation Object
  | .expression _ value => value.evaluateOr unknown
  | .block body => body.evaluateOr unknown
  | node@(.say _ _ _) | node@(.bareReturn _) | node@(.returnOf _ _) => node.evaluate

/-- The object a list of statements evaluates to, where `last` is what the statements before it
evaluated to. -/
def Statement.evaluateEachOr (unknown : Value) : List Statement → Object → Evaluation Object
  | [], last => return last
  | statement :: rest, _ => do
    let object ← statement.evaluateOr unknown
    if object.value.isError then return object
    else Statement.evaluateEachOr unknown rest object

/-- The object a block evaluates to. -/
def Block.evaluateOr (unknown : Value) : Block → Evaluation Object
  | .mk _ statements => Statement.evaluateEachOr unknown statements (.shared .null)

end

/-- The object a program evaluates to, with `unknown` for operators that are none. -/
def Program.evaluateOr (unknown : Value) (program : Program) : Evaluation Object :=
  Statement.evaluateEachOr unknown program.statements (.shared .null)

/-! ## Where the answer does not matter -/

/-- An operator that the node has is one. -/
def Node.HasKnownOperator : Node → Prop
  | .expression (.unary operator _) => operator.kind = .bang ∨ operator.kind = .minus
  | .expression (.binary _ operator _) => Grammar.IsBinary operator.kind
  | _ => True

theorem Node.Formed.hasKnownOperator {recorded : Diagnostic → Prop} {node : Node}
    (h : node.Formed recorded) : node.HasKnownOperator := by
  unfold HasKnownOperator
  split
  · exact h.1
  · exact h.1
  · trivial

/-- The answer for operators that are none is null as ever, or no node needs it. -/
def Unneeded (unknown : Value) (nodes : List Node) : Prop :=
  ∀ node ∈ nodes, unknown = .null ∨ node.HasKnownOperator

section unneeded

variable {unknown : Value} {operator : Token}

theorem unneeded_cons {node : Node} {nodes : List Node} :
    Unneeded unknown (node :: nodes) ↔
      (unknown = .null ∨ node.HasKnownOperator) ∧ Unneeded unknown nodes :=
  List.forall_mem_cons

theorem unneeded_append {nodes nodes' : List Node} :
    Unneeded unknown (nodes ++ nodes') ↔ Unneeded unknown nodes ∧ Unneeded unknown nodes' :=
  List.forall_mem_append

/-- Null is the answer for operators that are none. -/
theorem Evaluation.unary_eq_null (operand : Object)
    (h : ¬ (operator.kind = .bang ∨ operator.kind = .minus)) :
    unary operator operand = .null := by
  unfold unary
  generalize operator.kind = kind at h ⊢
  cases kind with
  | bang | minus => exact absurd (by decide) h
  | _ => rfl

theorem Evaluation.binary_eq_null (left right : Object) (h : ¬ Grammar.IsBinary operator.kind) :
    binary operator left right = .null := by
  unfold binary arithmetic
  generalize operator.kind = kind at h ⊢
  cases kind with
  | plus | minus | asterisk | slash | less | greater | equalEqual | bangEqual =>
    exact absurd (by decide) h
  | _ => split <;> rfl

theorem Evaluation.unaryOr_eq (operand : Object)
    (h : unknown = .null ∨ operator.kind = .bang ∨ operator.kind = .minus) :
    unaryOr unknown operator operand = unary operator operand := by
  unfold unaryOr
  by_cases hkind : operator.kind = .bang ∨ operator.kind = .minus
  · rw [if_pos hkind]
  · rw [if_neg hkind, unary_eq_null operand hkind]
    exact h.resolve_right hkind

theorem Evaluation.binaryOr_eq (left right : Object)
    (h : unknown = .null ∨ Grammar.IsBinary operator.kind) :
    binaryOr unknown operator left right = binary operator left right := by
  unfold binaryOr
  by_cases hkind : Grammar.IsBinary operator.kind
  · rw [if_pos hkind]
  · rw [if_neg hkind, binary_eq_null left right hkind]
    exact h.resolve_right hkind

-- The recursion is on the tree: each node evaluates its parts in the same order and, where it has
-- an operator, asks it for the same answer.
mutual

theorem Expression.evaluateOr_eq : ∀ e : Expression, Unneeded unknown e.nodes →
    e.evaluateOr unknown = e.evaluate
  | .number _ _, _ | .boolean _ _, _ | .error _ _, _ | .identifier _, _ | .function _ _ _, _
  | .call _ _ _, _ => rfl
  | .unary operator operand, h => by
    rw [Expression.nodes, unneeded_cons] at h
    rw [Expression.evaluateOr, Expression.evaluate, operand.evaluateOr_eq h.2]
    simp only [Evaluation.unaryOr_eq _ h.1]
  | .binary left operator right, h => by
    rw [Expression.nodes, unneeded_cons, unneeded_append] at h
    rw [Expression.evaluateOr, Expression.evaluate, left.evaluateOr_eq h.2.1,
      right.evaluateOr_eq h.2.2]
    simp only [Evaluation.binaryOr_eq _ _ h.1]
  | .ifThen _ condition consequence, h => by
    rw [Expression.nodes, unneeded_cons, unneeded_append] at h
    rw [Expression.evaluateOr, Expression.evaluate, condition.evaluateOr_eq h.2.1,
      consequence.evaluateOr_eq h.2.2]
  | .ifElse _ condition consequence alternative, h => by
    rw [Expression.nodes, unneeded_cons, unneeded_append, unneeded_append] at h
    rw [Expression.evaluateOr, Expression.evaluate, condition.evaluateOr_eq h.2.1.1,
      consequence.evaluateOr_eq h.2.1.2, alternative.evaluateOr_eq h.2.2]

theorem Statement.evaluateOr_eq : ∀ s : Statement, Unneeded unknown s.nodes →
    s.evaluateOr unknown = s.evaluate
  | .say _ _ _, _ | .bareReturn _, _ | .returnOf _ _, _ => rfl
  | .expression _ value, h => by
    rw [Statement.nodes, unneeded_cons] at h
    exact value.evaluateOr_eq h.2
  | .block body, h => by
    rw [Statement.nodes, unneeded_cons] at h
    exact body.evaluateOr_eq h.2

theorem Statement.evaluateEachOr_eq : ∀ (ss : List Statement) (last : Object),
    Unneeded unknown (Statement.nodesOfEach ss) →
      Statement.evaluateEachOr unknown ss last = Statement.evaluateEach ss last
  | [], _, _ => rfl
  | statement :: rest, last, h => by
    rw [Statement.nodesOfEach, unneeded_append] at h
    rw [Statement.evaluateEachOr, Statement.evaluateEach, statement.evaluateOr_eq h.1]
    simp only [fun object => Statement.evaluateEachOr_eq rest object h.2]

theorem Block.evaluateOr_eq : ∀ b : Block, Unneeded unknown b.nodes →
    b.evaluateOr unknown = b.evaluate
  | .mk _ statements, h => by
    rw [Block.nodes, unneeded_cons] at h
    exact Statement.evaluateEachOr_eq statements _ h.2

end

theorem Program.evaluateOr_eq {program : Program} (h : Unneeded unknown program.nodes) :
    program.evaluateOr unknown = program.evaluate := by
  rw [Program.nodes, unneeded_cons] at h
  exact Statement.evaluateEachOr_eq program.statements _ h.2

end unneeded

/-- Null is the answer that evaluation gives for operators that are none. -/
theorem evaluateOr_null (program : Program) : program.evaluateOr .null = program.evaluate :=
  Program.evaluateOr_eq fun _ _ => .inl rfl

/-! ## Parsed trees -/

/-- Whatever the text, all nodes of the tree that is parsed from it are of the kinds that their
tokens say. The numbers among them are in range and denote what their digits do. An operator is
never anything else, so evaluation does not depend on the answer for that. -/
theorem nodes_formed_and_operators_known (source : String) :
    (∀ node ∈ (parse source).program.nodes, node.Formed (· ∈ (parse source).diagnostics)) ∧
      (∀ (token : Token) (value : Integer),
        .expression (.number token value) ∈ (parse source).program.nodes →
          token.literal.toList ≠ [] ∧ (∀ c ∈ token.literal.toList, c.isDigit = true) ∧
            value.val = Nat.ofDigitChars 10 token.literal.toList 0 ∧
            0 ≤ value.val ∧ value.val ≤ 9223372036854775807) ∧
      ∀ unknown : Value, (parse source).program.evaluateOr unknown =
        (parse source).program.evaluate := by
  have hformed := parse_formed source
  refine ⟨hformed, fun token value hnode => ?_, fun unknown => ?_⟩
  · obtain ⟨-, hvalue⟩ := hformed _ hnode
    obtain ⟨hne, hdigits, hval⟩ := Integer.ofDigits?_eq_some_iff.mp hvalue
    exact ⟨hne, List.all_eq_true.mp hdigits, hval, nonneg_of_ofDigits? hvalue, value.le⟩
  · exact Program.evaluateOr_eq fun node hnode => .inr (hformed node hnode).hasKnownOperator

/-- A number with a leading zero, behind an operator and before something broken. -/
theorem nodes_formed_of_negative_number :
    let source := "-07 )"
    let number := Expression.number ⟨.number, "07", 1⟩ ⟨7, by decide, by decide⟩
    .expression number ∈ (parse source).program.nodes ∧
      (Node.expression number).Formed (· ∈ (parse source).diagnostics) ∧
      (7 : Int) = Nat.ofDigitChars 10 ['0', '7'] 0 ∧
      (parse source).program.evaluateOr (.boolean true) = (parse source).program.evaluate := by
  intro source number
  obtain ⟨hformed, hnumber, hknown⟩ := nodes_formed_and_operators_known source
  have htree : (parse source).program =
      ⟨[.expression ⟨.minus, "-", 1⟩ (.unary ⟨.minus, "-", 1⟩ number),
        .expression ⟨.rightParen, ")", 1⟩
          (.error ⟨.rightParen, ")", 1⟩ "No prefix parse function for )")]⟩ := by
    decide +kernel
  have hnode : .expression number ∈ (parse source).program.nodes := by
    rw [htree]
    exact .tail _ (.tail _ (.tail _ (.head _)))
  exact ⟨hnode, hformed _ hnode, (hnumber _ _ hnode).2.2.1, hknown _⟩

end SayLang
