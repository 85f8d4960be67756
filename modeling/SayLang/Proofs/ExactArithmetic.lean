import SayLang.Proofs.Instances

/-!
# Arithmetic is exact or refused

An expression of numbers, negation and the four operators of arithmetic has an exact value among all
whole numbers, unless there is a quotient by zero in it. Evaluation answers that value as long as
the range holds it and those of all parts (`Expression.Fits`). Where the parts fit but the whole
does not, it answers an error that says why (`Expression.RefusedWith`). And where a part does not
fit, the operator above that part gets an error or null for an operand and gives null, and so on up
to the root.

> `Expression.Arithmetic.outcome`: one of the three, by induction on the expression.
> `arithmetic_exact_or_refused`: which of the three, exactly.

Nothing ever wraps: every operation asks for the range of its exact result.
-/

namespace SayLang

/-! ## Exact values -/

/-- The operators of arithmetic between two operands. -/
def Kind.isArithmetic : Kind → Bool
  | plus | minus | asterisk | slash => true
  | _ => false

theorem Kind.exists_exact {kind : Kind} (h : kind.isArithmetic = true) (l r : Int) :
    ∃ n, kind.exact? l r = some n := by
  cases kind with
  | plus | minus | asterisk | slash => exact ⟨_, rfl⟩
  | _ => exact nomatch h

namespace Expression

/-- The expression is made of numbers, negation and operators of arithmetic alone. -/
inductive Arithmetic : Expression → Prop where
  | number (token : Token) (value : Integer) : Arithmetic (.number token value)
  | negation {operator : Token} {operand : Expression} :
      operator.kind = .minus → Arithmetic operand → Arithmetic (.unary operator operand)
  | operation {left right : Expression} {operator : Token} :
      operator.kind.isArithmetic = true → Arithmetic left → Arithmetic right →
      Arithmetic (.binary left operator right)

/-- The value of an arithmetic expression among all whole numbers. There is none for a quotient by
zero, nor for an expression with such a quotient in it. -/
def exactValue? : Expression → Option Int
  | .number _ value => some value.val
  | .unary operator operand => do
    let n ← operand.exactValue?
    if operator.kind = .minus then some (-n) else none
  | .binary left operator right => do
    let l ← left.exactValue?
    let r ← right.exactValue?
    if operator.kind = .slash ∧ r = 0 then none else operator.kind.exact? l r
  | _ => none

/-- There is an exact value and it is in range. -/
def Fits (e : Expression) : Prop := ∃ n, e.exactValue? = some n ∧ Integer.InRange n

/-- The expressions that an expression is made of, itself first. -/
def subexpressions (e : Expression) : List Expression := e.nodes.filterMap Node.expression?

/-- Those of them that are not the whole. -/
def properSubexpressions (e : Expression) : List Expression := e.subexpressions.tail

/-- What the error says of an expression that does not fit though its parts do. -/
inductive RefusedWith : Expression → String → Prop where
  | divisionByZero {left right : Expression} {operator : Token} :
      operator.kind = .slash → right.exactValue? = some 0 →
      RefusedWith (.binary left operator right) "division by zero"
  | overflow {left right : Expression} {operator : Token} {l r n : Int} :
      left.exactValue? = some l → right.exactValue? = some r → ¬ (operator.kind = .slash ∧ r = 0) →
      operator.kind.exact? l r = some n → ¬ Integer.InRange n →
      RefusedWith (.binary left operator right)
        ("integer overflow: " ++ toString l ++ " " ++ operator.literal ++ " " ++ toString r)
  | negationOverflow {operand : Expression} {operator : Token} {n : Int} :
      operand.exactValue? = some n → ¬ Integer.InRange (-n) →
      RefusedWith (.unary operator operand) ("integer overflow: -" ++ toString n)

/-! ## Parts -/

section parts

variable (e left right : Expression) (operator : Token)

theorem subexpressions_eq_cons : e.subexpressions = e :: e.properSubexpressions := by
  cases e <;> rfl

theorem properSubexpressions_unary :
    (unary operator e).properSubexpressions = e.subexpressions := rfl

theorem properSubexpressions_binary :
    (binary left operator right).properSubexpressions =
      left.subexpressions ++ right.subexpressions :=
  List.filterMap_append

variable {e}

/-- Everything fits when the parts do and the whole does. -/
theorem forall_fits_iff :
    (∀ part ∈ e.subexpressions, part.Fits) ↔
      e.Fits ∧ ∀ part ∈ e.properSubexpressions, part.Fits := by
  rw [subexpressions_eq_cons, List.forall_mem_cons]

end parts

/-! ## The three outcomes -/

/-- The value that an expression has by how far its parts fit. -/
inductive Outcome (e : Expression) : Value → Prop where
  /-- Everything fits, and the value is exact. -/
  | exact {v : Integer} :
      (∀ part ∈ e.subexpressions, part.Fits) → e.exactValue? = some v.val → Outcome e (.integer v)
  /-- The parts fit and the whole does not. -/
  | refused {m : String} :
      (∀ part ∈ e.properSubexpressions, part.Fits) → ¬ e.Fits → e.RefusedWith m →
      Outcome e (.error m)
  /-- A part does not fit. -/
  | spoiled : (∃ part ∈ e.properSubexpressions, ¬ part.Fits) → Outcome e .null

namespace Outcome

variable {e : Expression} {value : Value}

/-- Either everything fits and the value is exact, or it is no integer and something in the
expression does not fit. -/
theorem exact_or (h : e.Outcome value) :
    (∃ v, value = .integer v ∧ (∀ part ∈ e.subexpressions, part.Fits) ∧
        e.exactValue? = some v.val) ∨
      (∀ v, value ≠ .integer v) ∧ ∃ part ∈ e.subexpressions, ¬ part.Fits := by
  cases h with
  | exact hfit hexact => exact .inl ⟨_, rfl, hfit, hexact⟩
  | refused _ hunfit _ =>
    refine .inr ⟨fun _ => Value.noConfusion, e, ?_, hunfit⟩
    rw [subexpressions_eq_cons]
    exact List.mem_cons_self
  | spoiled hpart =>
    obtain ⟨part, hmem, hunfit⟩ := hpart
    refine .inr ⟨fun _ => Value.noConfusion, part, ?_, hunfit⟩
    rw [subexpressions_eq_cons]
    exact List.mem_cons_of_mem _ hmem

/-- Where the parts fit, an exact value is answered if the range holds it. -/
theorem of_exact {fault : Fault} {n : Int}
    (hparts : ∀ part ∈ e.properSubexpressions, part.Fits) (hexact : e.exactValue? = some n)
    (hrefused : ¬ Integer.InRange n → e.RefusedWith fault.message) :
    e.Outcome (.ofExact fault n) := by
  unfold Value.ofExact
  split
  next hrange => exact .exact (forall_fits_iff.mpr ⟨⟨n, hexact, hrange⟩, hparts⟩) hexact
  next hrange =>
    refine .refused hparts ?_ (hrefused hrange)
    intro hfits
    obtain ⟨n', hexact', hrange'⟩ := hfits
    rw [hexact, Option.some.injEq] at hexact'
    rw [hexact'] at hrange
    exact hrange hrange'

/-! The three exclude each other, so the value tells which of them it is. -/

theorem eq_integer_iff (h : e.Outcome value) (v : Integer) :
    value = .integer v ↔
      (∀ part ∈ e.subexpressions, part.Fits) ∧ e.exactValue? = some v.val := by
  cases h with
  | exact hfit hexact =>
    rw [Value.integer.injEq, hexact, Option.some.injEq, Integer.ext_iff]
    exact (and_iff_right hfit).symm
  | refused _ hunfit _ =>
    exact iff_of_false nofun fun hexact => hunfit (forall_fits_iff.mp hexact.1).1
  | spoiled hspoiled =>
    obtain ⟨part, hmem, hunfit⟩ := hspoiled
    exact iff_of_false nofun fun hexact => hunfit ((forall_fits_iff.mp hexact.1).2 part hmem)

theorem exists_eq_error_iff (h : e.Outcome value) :
    (∃ m, value = .error m) ↔ (∀ part ∈ e.properSubexpressions, part.Fits) ∧ ¬ e.Fits := by
  cases h with
  | exact hfit _ =>
    exact iff_of_false nofun fun hrefused => hrefused.2 (forall_fits_iff.mp hfit).1
  | refused hparts hunfit _ => exact iff_of_true ⟨_, rfl⟩ ⟨hparts, hunfit⟩
  | spoiled hspoiled =>
    obtain ⟨part, hmem, hunfit⟩ := hspoiled
    exact iff_of_false nofun fun hrefused => hunfit (hrefused.1 part hmem)

theorem refusedWith {m : String} (h : e.Outcome (.error m)) : e.RefusedWith m := by
  cases h with
  | refused _ _ hrefused => exact hrefused

theorem eq_null_iff (h : e.Outcome value) :
    value = .null ↔ ∃ part ∈ e.properSubexpressions, ¬ part.Fits := by
  cases h with
  | exact hfit _ =>
    refine iff_of_false nofun fun hspoiled => ?_
    obtain ⟨part, hmem, hunfit⟩ := hspoiled
    exact hunfit ((forall_fits_iff.mp hfit).2 part hmem)
  | refused hparts _ _ =>
    refine iff_of_false nofun fun hspoiled => ?_
    obtain ⟨part, hmem, hunfit⟩ := hspoiled
    exact hunfit (hparts part hmem)
  | spoiled hspoiled => exact iff_of_true rfl hspoiled

end Outcome

end Expression

namespace Value

/-- The opposite of what is no integer is null. -/
theorem unary_of_ne_integer {operator : Token} {value : Value} (hk : operator.kind = .minus)
    (h : ∀ v, value ≠ integer v) : unary operator value = null := by
  unfold unary
  rw [hk]
  cases value with
  | integer v => exact absurd rfl (h v)
  | boolean _ | null | error _ => rfl

/-- So is what an operator of arithmetic makes of operands that are not both integers. -/
theorem binary_of_ne_integer {operator : Token} {left right : Value}
    (hk : operator.kind.isArithmetic = true)
    (h : (∀ v, left ≠ integer v) ∨ ∀ v, right ≠ integer v) :
    binary operator left right = null := by
  unfold binary
  split
  · rcases h with h | h
    · exact absurd rfl (h _)
    · exact absurd rfl (h _)
  · split
    next hequal =>
      rw [hequal] at hk
      exact nomatch hk
    next hunequal =>
      rw [hunequal] at hk
      exact nomatch hk
    next => rfl

end Value

namespace Expression

theorem outcome_negation {operator : Token} {operand : Expression} (hk : operator.kind = .minus)
    (h : operand.Outcome operand.meaning) :
    (unary operator operand).Outcome (unary operator operand).meaning := by
  rw [meaning]
  rcases h.exact_or with ⟨v, hvalue, hfit, hexact⟩ | ⟨hvalue, hpart⟩
  · rw [hvalue, Value.unary_integer hk]
    have hroot : (unary operator operand).exactValue? = some (-v.val) := by
      rw [exactValue?, hexact, hk]
      rfl
    rw [← properSubexpressions_unary operand operator] at hfit
    exact .of_exact hfit hroot fun hrange => .negationOverflow hexact hrange
  · rw [Value.unary_of_ne_integer hk hvalue]
    rw [← properSubexpressions_unary operand operator] at hpart
    exact .spoiled hpart

/-- Two integers under an operator give a quotient by zero, or what is exact as far as the range
holds it. -/
theorem outcome_arithmetic {operator : Token} {left right : Expression} {l r : Integer}
    (hk : operator.kind.isArithmetic = true)
    (hparts : ∀ part ∈ (binary left operator right).properSubexpressions, part.Fits)
    (hl : left.exactValue? = some l.val) (hr : right.exactValue? = some r.val) :
    (binary left operator right).Outcome (Value.arithmetic operator l r) := by
  have hroot : (binary left operator right).exactValue? =
      if operator.kind = .slash ∧ r.val = 0 then none
      else operator.kind.exact? l.val r.val := by
    rw [exactValue?, hl, hr]
    rfl
  unfold Value.arithmetic
  by_cases hzero : operator.kind = .slash ∧ r.val = 0
  · rw [if_pos hzero]
    rw [if_pos hzero] at hroot
    rw [hzero.2] at hr
    refine .refused hparts ?_ (.divisionByZero hzero.1 hr)
    intro hfits
    obtain ⟨n, hexact, _⟩ := hfits
    rw [hroot] at hexact
    exact nomatch hexact
  · obtain ⟨n, hn⟩ := Kind.exists_exact hk l.val r.val
    rw [if_neg hzero, hn]
    rw [if_neg hzero, hn] at hroot
    exact .of_exact hparts hroot fun hrange => .overflow hl hr hzero hn hrange

theorem outcome_operation {operator : Token} {left right : Expression}
    (hk : operator.kind.isArithmetic = true) (hl : left.Outcome left.meaning)
    (hr : right.Outcome right.meaning) :
    (binary left operator right).Outcome (binary left operator right).meaning := by
  rw [meaning]
  have hparts := properSubexpressions_binary left right operator
  rcases hl.exact_or with ⟨l, hlvalue, hlfit, hlexact⟩ | ⟨hlvalue, part, hpart, hunfit⟩
  · rcases hr.exact_or with ⟨r, hrvalue, hrfit, hrexact⟩ | ⟨hrvalue, part, hpart, hunfit⟩
    · have hfit : ∀ part ∈ (binary left operator right).properSubexpressions, part.Fits := by
        rw [hparts]
        exact List.forall_mem_append.mpr ⟨hlfit, hrfit⟩
      rw [hlvalue, hrvalue]
      exact outcome_arithmetic hk hfit hlexact hrexact
    · rw [Value.binary_of_ne_integer hk (.inr hrvalue)]
      refine .spoiled ⟨part, ?_, hunfit⟩
      rw [hparts]
      exact List.mem_append_right _ hpart
  · rw [Value.binary_of_ne_integer hk (.inl hlvalue)]
    refine .spoiled ⟨part, ?_, hunfit⟩
    rw [hparts]
    exact List.mem_append_left _ hpart

/-- What an arithmetic expression means is one of the three. -/
theorem Arithmetic.outcome {e : Expression} (h : e.Arithmetic) : e.Outcome e.meaning := by
  induction h with
  | number token value =>
    refine .exact ?_ rfl
    rw [subexpressions_eq_cons]
    exact List.forall_mem_cons.mpr ⟨⟨_, rfl, value.inRange_val⟩, List.forall_mem_nil _⟩
  | negation hk _ ih => exact outcome_negation hk ih
  | operation hk _ _ ihl ihr => exact outcome_operation hk ihl ihr

end Expression

/-! ## What evaluation answers -/

/-- An arithmetic expression evaluates to an integer exactly when it and all its parts have values
in range, and the integer is the exact value. It evaluates to an error exactly when this is so of
its parts but not of itself, and the error says why. And it evaluates to the shared null exactly
when it is not so of some part. -/
theorem arithmetic_exact_or_refused {e : Expression} (h : e.Arithmetic) (supply : Supply) :
    let object := (e.evaluate.run supply).value
    (∀ v, object.value = .integer v ↔
      (∀ part ∈ e.subexpressions, part.Fits) ∧ e.exactValue? = some v.val) ∧
    ((∃ m, object.value = .error m) ↔
      (∀ part ∈ e.properSubexpressions, part.Fits) ∧ ¬ e.Fits) ∧
    (∀ m, object.value = .error m → e.RefusedWith m) ∧
    (object = .shared .null ↔ ∃ part ∈ e.properSubexpressions, ¬ part.Fits) := by
  intro object
  have hhanded := (e.delivers supply).handed
  have hnull : object = .shared .null ↔ object.value = .null := by
    constructor
    · intro hobject
      rw [hobject]
      rfl
    · intro hvalue
      rw [hhanded.value_eq] at hvalue
      exact hhanded.eq_shared (by rw [hvalue]; rfl)
  rw [hnull, hhanded.value_eq]
  have houtcome := h.outcome
  refine ⟨houtcome.eq_integer_iff, houtcome.exists_eq_error_iff, ?_, houtcome.eq_null_iff⟩
  intro m hm
  rw [hm] at houtcome
  exact houtcome.refusedWith

/-- The least integer has neither an opposite nor a quotient or a product by minus one. -/
theorem arithmetic_at_the_least_integer :
    let least : Expression :=
      .number ⟨.number, "least", 1⟩ ⟨-9223372036854775808, by decide, by decide⟩
    let minusOne : Expression := .number ⟨.number, "minus one", 1⟩ ⟨-1, by decide, by decide⟩
    ∀ refusal ∈ [
        (Expression.unary ⟨.minus, "-", 1⟩ least, "integer overflow: --9223372036854775808"),
        (Expression.binary least ⟨.slash, "/", 1⟩ minusOne,
          "integer overflow: -9223372036854775808 / -1"),
        (Expression.binary least ⟨.asterisk, "*", 1⟩ minusOne,
          "integer overflow: -9223372036854775808 * -1")],
      refusal.1.Arithmetic ∧
        (refusal.1.evaluate.run ⟨0⟩).value.value = .error refusal.2 ∧
        (∀ part ∈ refusal.1.properSubexpressions, part.Fits) ∧ ¬ refusal.1.Fits ∧
        refusal.1.RefusedWith refusal.2 := by
  intro least minusOne refusal hmem
  have hleast : least.Arithmetic := .number _ _
  have hminusOne : minusOne.Arithmetic := .number _ _
  simp only [List.mem_cons, List.not_mem_nil, or_false] at hmem
  have hvalue : (refusal.1.evaluate.run ⟨0⟩).value.value = .error refusal.2 := by
    rcases hmem with rfl | rfl | rfl <;> decide
  have harithmetic : refusal.1.Arithmetic := by
    rcases hmem with rfl | rfl | rfl
    · exact .negation rfl hleast
    · exact .operation rfl hleast hminusOne
    · exact .operation rfl hleast hminusOne
  obtain ⟨-, herror, hrefused, -⟩ := arithmetic_exact_or_refused harithmetic ⟨0⟩
  obtain ⟨hparts, hunfit⟩ := herror.mp ⟨_, hvalue⟩
  exact ⟨harithmetic, hvalue, hparts, hunfit, hrefused _ hvalue⟩

end SayLang
