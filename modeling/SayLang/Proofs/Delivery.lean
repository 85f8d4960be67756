import SayLang.Evaluation
import SayLang.Proofs.Meaning

/-!
# Evaluation delivers what a tree means

Evaluation compares and tests instances, yet which value comes out never depends on them. What makes
this so is how values are handed out (`Object.Handed`): a boolean or null always as its shared
instance, an integer or an error always as an object allocated on the way. Two operands are then
the same instance exactly when they are the same boolean or both null, since the right one is
allocated after the left one.

> `Node.delivers`: evaluation hands out what the node means, in this way.
> `value_evaluate_eq_meaning`: so it answers that value, from whatever supply.
-/

namespace SayLang

/-! ## How a value is handed out -/

/-- The object is how a value is handed out: its shared instance if it is a boolean or null, and
otherwise an object with a number from `first` on and below `next`. -/
inductive Object.Handed (first next : Nat) : Value → Object → Prop where
  | shared (which : Shared) : Handed first next which.value (.shared which)
  | integer {number : Nat} {n : Integer} :
      first ≤ number → number < next →
      Handed first next (.integer n) (.allocated number (.integer n))
  | error {number : Nat} {message : String} :
      first ≤ number → number < next →
      Handed first next (.error message) (.allocated number (.error message))

namespace Object.Handed

variable {first next : Nat} {value : Value} {object : Object}

theorem value_eq (h : Handed first next value object) : object.value = value := by
  cases h <;> rfl

/-- More numbers may be allowed. -/
theorem mono {first' next' : Nat} (h : Handed first next value object) (hfirst : first' ≤ first)
    (hnext : next ≤ next') : Handed first' next' value object := by
  cases h with
  | shared which => exact .shared which
  | integer hle hlt => exact .integer (Nat.le_trans hfirst hle) (Nat.lt_of_lt_of_le hlt hnext)
  | error hle hlt => exact .error (Nat.le_trans hfirst hle) (Nat.lt_of_lt_of_le hlt hnext)

/-- A condition sees the value. -/
theorem isTruthy_eq (h : Handed first next value object) :
    object.isTruthy = value.countsAsTrue := by
  cases h with
  | shared which => cases which <;> rfl
  | integer _ _ | error _ _ => rfl

/-- Operands handed out one after the other are the same instance only when they are the same
boolean or both null. -/
theorem same_eq {last : Nat} {value' : Value} {object' : Object}
    (h : Handed first next value object) (h' : Handed next last value' object') :
    object.same object' = value.equals value' := by
  -- an object allocated for the left operand has a smaller number than one for the right
  have hother {number number' : Nat} (hlt : number < next) (hle : next ≤ number')
      (v v' : Value) : same (.allocated number v) (.allocated number' v') = false :=
    decide_eq_false (Nat.ne_of_lt (Nat.lt_of_lt_of_le hlt hle))
  cases h with
  | shared which =>
    cases h' with
    | shared which' => cases which <;> cases which' <;> rfl
    | integer _ _ | error _ _ => cases which <;> rfl
  | integer _ hlt | error _ hlt =>
    cases h' with
    | shared which' => cases which' <;> rfl
    | integer hle _ | error hle _ => exact hother hlt hle _ _

end Object.Handed

/-! ## Operators -/

/-- Calculating with `Integer`s is calculating exactly and then asking for the range. -/
theorem checked_ofInt? (fault : Fault) (n : Int) :
    Value.checked fault (Integer.ofInt? n) = .ofExact fault n := by
  unfold Integer.ofInt? Value.ofExact
  split <;> rfl

/-- An operator in front of an operand sees the value. -/
theorem unary_eq {first next : Nat} {value : Value} {object : Object} (operator : Token)
    (h : Object.Handed first next value object) :
    Evaluation.unary operator object = Value.unary operator value := by
  unfold Evaluation.unary Value.unary
  rw [h.isTruthy_eq, h.value_eq]
  cases operator.kind with
  | minus =>
    cases value with
    | integer n => exact checked_ofInt? _ _
    | _ => rfl
  | _ => rfl

theorem arithmetic_eq (operator : Token) (l r : Integer) :
    Evaluation.arithmetic operator l r = Value.arithmetic operator l r := by
  unfold Evaluation.arithmetic Value.arithmetic
  cases operator.kind with
  | plus | minus | asterisk => exact checked_ofInt? _ _
  | slash =>
    by_cases hzero : r.val = 0
    · simp [hzero]
    · simp only [hzero, if_false, and_false]
      exact checked_ofInt? _ _
  | _ => rfl

/-- An operator between two operands, the left one handed out first, sees the values. -/
theorem binary_eq {first next last : Nat} {l r : Value} {left right : Object} (operator : Token)
    (hl : Object.Handed first next l left) (hr : Object.Handed next last r right) :
    Evaluation.binary operator left right = Value.binary operator l r := by
  unfold Evaluation.binary
  rw [hl.value_eq, hr.value_eq, hl.same_eq hr]
  cases l with
  | integer n =>
    cases r with
    | integer m => exact arithmetic_eq operator n m
    | _ => rfl
  | _ => rfl

/-! ## Computations -/

/-- From the supply, the computation hands out the value, by a number from `first` on if it takes
one, and gives no number back. -/
structure DeliversFrom (first : Nat) (supply : Supply) (p : Evaluation Object) (value : Value) :
    Prop where
  /-- The value is handed out. -/
  handed : Object.Handed first (p.run supply).state.next value (p.run supply).value
  /-- No number is given back. -/
  le : supply.next ≤ (p.run supply).state.next

/-- From whatever supply, the computation hands out the value. A number that it takes is one of the
supply. -/
def Delivers (p : Evaluation Object) (value : Value) : Prop :=
  ∀ supply : Supply, DeliversFrom supply.next supply p value

/-- Fewer numbers than those of the supply need not be told apart. -/
theorem Delivers.since {p : Evaluation Object} {value : Value} (h : Delivers p value) {first : Nat}
    {supply : Supply} (hle : first ≤ supply.next) : DeliversFrom first supply p value :=
  ⟨(h supply).handed.mono hle (Nat.le_refl _), (h supply).le⟩

/-- What comes after a computation delivers from where that ends. -/
theorem DeliversFrom.bind {first first' : Nat} {supply : Supply} {p : Evaluation Object}
    {v w : Value} {f : Object → Evaluation Object} (h : DeliversFrom first' supply p v)
    (hf : DeliversFrom first (p.run supply).state (f (p.run supply).value) w) :
    DeliversFrom first supply (p >>= f) w := by
  refine ⟨?_, ?_⟩
  · rw [Traced.run_bind]
    exact hf.handed
  · rw [Traced.run_bind]
    exact Nat.le_trans h.le hf.le

theorem delivers_deliver (value : Value) : Delivers (Object.deliver value) value := by
  intro supply
  cases value with
  | boolean b =>
    refine ⟨?_, Nat.le_refl _⟩
    cases b with
    | true => exact .shared .truth
    | false => exact .shared .falsehood
  | null => exact ⟨.shared .null, Nat.le_refl _⟩
  | integer n => exact ⟨.integer (Nat.le_refl _) (Nat.lt_succ_self _), Nat.le_succ _⟩
  | error message => exact ⟨.error (Nat.le_refl _) (Nat.lt_succ_self _), Nat.le_succ _⟩

theorem delivers_unsupported (node : Node) :
    Delivers (Evaluation.unsupported node) (.ofFault .unsupported) := by
  intro supply
  -- the record leaves neither the value nor the supply different
  obtain ⟨hhanded, hle⟩ := delivers_deliver (.ofFault .unsupported) supply
  exact ⟨hhanded, hle⟩

theorem delivers_unary {operand : Evaluation Object} {value : Value} (operator : Token)
    (h : Delivers operand value) :
    Delivers
      (do
        let operand ← operand
        Object.deliver (Evaluation.unary operator operand))
      (Value.unary operator value) := by
  intro supply
  refine (h supply).bind ?_
  rw [unary_eq operator (h supply).handed]
  exact (delivers_deliver _).since (h supply).le

theorem delivers_binary {left right : Evaluation Object} {l r : Value} (operator : Token)
    (hl : Delivers left l) (hr : Delivers right r) :
    Delivers
      (do
        let left ← left
        let right ← right
        Object.deliver (Evaluation.binary operator left right))
      (Value.binary operator l r) := by
  intro supply
  have hl := hl supply
  have hr := hr (left.run supply).state
  refine hl.bind (hr.bind ?_)
  rw [binary_eq operator hl.handed hr.handed]
  exact (delivers_deliver _).since (Nat.le_trans hl.le hr.le)

theorem delivers_conditional {condition consequence alternative : Evaluation Object}
    {c v w : Value} (hc : Delivers condition c) (hv : Delivers consequence v)
    (hw : Delivers alternative w) :
    Delivers
      (do
        let condition ← condition
        if condition.isTruthy then consequence else alternative)
      (if c.countsAsTrue then v else w) := by
  intro supply
  refine (hc supply).bind ?_
  rw [(hc supply).handed.isTruthy_eq]
  split
  · exact hv.since (hc supply).le
  · exact hw.since (hc supply).le

/-! ## Trees -/

-- The recursion is on the tree. In a list of statements, what those before amount to has been
-- handed out already, so the numbers from where the list started are allowed.
mutual

theorem Expression.delivers : ∀ e : Expression, Delivers e.evaluate e.meaning
  | .number _ _ | .boolean _ _ | .error _ _ => delivers_deliver _
  | .unary operator operand => delivers_unary operator operand.delivers
  | .binary left operator right => delivers_binary operator left.delivers right.delivers
  | .ifThen _ condition consequence =>
    delivers_conditional condition.delivers consequence.delivers (delivers_deliver .null)
  | .ifElse _ condition consequence alternative =>
    delivers_conditional condition.delivers consequence.delivers alternative.delivers
  | .identifier _ | .function _ _ _ | .call _ _ _ => delivers_unsupported _

theorem Statement.delivers : ∀ s : Statement, Delivers s.evaluate s.meaning
  | .expression _ value => value.delivers
  | .block body => body.delivers
  | .say _ _ _ | .bareReturn _ | .returnOf _ _ => delivers_unsupported _

theorem Statement.deliversEach : ∀ (statements : List Statement) {first : Nat} {supply : Supply}
    {before : Value} {last : Object}, Object.Handed first supply.next before last →
      first ≤ supply.next →
      DeliversFrom first supply (Statement.evaluateEach statements last)
        (.conclude before (Statement.meaningOfEach statements))
  | [], _, _, _, _, hlast, _ => ⟨hlast, Nat.le_refl _⟩
  | statement :: rest, _, supply, _, _, _, hfirst => by
    have hstatement := statement.delivers supply
    rw [Statement.meaningOfEach, Value.conclude_cons]
    refine hstatement.bind ?_
    rw [hstatement.handed.value_eq]
    have hhanded := hstatement.handed.mono hfirst (Nat.le_refl _)
    split
    · exact ⟨hhanded, Nat.le_refl _⟩
    · exact Statement.deliversEach rest hhanded (Nat.le_trans hfirst hstatement.le)

theorem Block.delivers : ∀ b : Block, Delivers b.evaluate b.meaning
  | .mk _ statements => fun _ => Statement.deliversEach statements (.shared .null) (Nat.le_refl _)

end

/-- What a node means. -/
def Node.meaning : Node → Value
  | program p => p.meaning
  | statement s => s.meaning
  | block b => b.meaning
  | expression e => e.meaning

/-- Evaluation hands out what the node means. -/
theorem Node.delivers : ∀ node : Node, Delivers node.evaluate node.meaning
  | program p => fun _ => Statement.deliversEach p.statements (.shared .null) (Nat.le_refl _)
  | statement s => s.delivers
  | block b => b.delivers
  | expression e => e.delivers

/-- In particular what a program means. -/
theorem Program.evaluate_value (program : Program) (supply : Supply) :
    (program.evaluate.run supply).value.value = program.meaning :=
  ((Node.program program).delivers supply).handed.value_eq

/-- Evaluation answers the value that the node means, whatever was allocated before. -/
theorem value_evaluate_eq_meaning (node : Node) (supply : Supply) :
    (node.evaluate.run supply).value.value = node.meaning :=
  (node.delivers supply).handed.value_eq

end SayLang
