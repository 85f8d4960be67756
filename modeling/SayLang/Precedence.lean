import SayLang.Token

/-!
# Precedence of operators

How tightly the operator that a token starts binds, from the loosest to the tightest:

| precedence    | operators        |
|---------------|------------------|
| `equals`      | `==` `!=`        |
| `lessGreater` | `<` `>`          |
| `sum`         | `+` `-`          |
| `product`     | `*` `/`          |
| `unary`       | `!` `-` in front |
| `call`        | `(` of a call    |

All binary operators group to the left. A token that continues no expression has the precedence
`lowest`, below all operators, so an expression ends in front of it.
-/

namespace SayLang

/-- How tightly an operator binds. -/
inductive Precedence where
  /-- No operator at all. -/
  | lowest
  /-- Equality and its negation. -/
  | equals
  /-- The two comparisons. -/
  | lessGreater
  /-- Addition and subtraction. -/
  | sum
  /-- Multiplication and division. -/
  | product
  /-- An operator in front of its only operand. -/
  | unary
  /-- The arguments of a call. -/
  | call
deriving DecidableEq

namespace Precedence

/-- The place in the order, counted from the loosest. -/
def rank : Precedence → Nat
  | lowest => 0
  | equals => 1
  | lessGreater => 2
  | sum => 3
  | product => 4
  | unary => 5
  | call => 6

theorem rank_injective {p q : Precedence} (h : p.rank = q.rank) : p = q := by
  cases p <;> cases q <;> simp_all [rank]

instance : LT Precedence := ⟨fun p q => p.rank < q.rank⟩

instance : LE Precedence := ⟨fun p q => p.rank ≤ q.rank⟩

theorem lt_iff_rank {p q : Precedence} : p < q ↔ p.rank < q.rank := Iff.rfl

theorem le_iff_rank {p q : Precedence} : p ≤ q ↔ p.rank ≤ q.rank := Iff.rfl

instance (p q : Precedence) : Decidable (p < q) := decidable_of_iff _ lt_iff_rank.symm

instance (p q : Precedence) : Decidable (p ≤ q) := decidable_of_iff _ le_iff_rank.symm

instance : Ord Precedence := ⟨fun p q => compare p.rank q.rank⟩

end Precedence

/-- How tightly a token of this kind continues the expression on its left. -/
def Kind.precedence : Kind → Precedence
  | equalEqual | bangEqual => .equals
  | less | greater => .lessGreater
  | plus | minus => .sum
  | asterisk | slash => .product
  | leftParen => .call
  | _ => .lowest

end SayLang
