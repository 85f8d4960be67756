/-!
# Integers in a signed 64-bit range

The language counts with whole numbers between `-2 ^ 63` and `2 ^ 63 - 1`. An `Integer` is such a
number together with the proof that it lies in the range, so nothing ever wraps: an operation
computes the exact result among all whole numbers and then asks whether the range holds it.

> `ofInt?_eq_some_iff`: `ofInt? n` is `some a` exactly when `a` denotes `n`.
> `ofInt?_eq_none_iff`: it is `none` exactly when `n` lies outside the range.

Every checked operation is `ofInt?` of the exact result and inherits both facts.
-/

namespace SayLang

/-- A whole number that fits a signed 64-bit word. -/
structure Integer where
  /-- The number denoted. -/
  val : Int
  /-- It is not below the smallest value. -/
  ge : -9223372036854775808 ≤ val
  /-- It is not above the greatest value. -/
  le : val ≤ 9223372036854775807
deriving DecidableEq

namespace Integer

/-- The numbers an `Integer` can denote: from `-2 ^ 63` to `2 ^ 63 - 1`. -/
def InRange (n : Int) : Prop := -9223372036854775808 ≤ n ∧ n ≤ 9223372036854775807

instance (n : Int) : Decidable (InRange n) := by unfold InRange; infer_instance

theorem inRange_val (a : Integer) : InRange a.val := ⟨a.ge, a.le⟩

@[ext] theorem ext {a b : Integer} (h : a.val = b.val) : a = b := by
  cases a; cases b; cases h; rfl

/-- A number in range as an `Integer`. -/
def ofInRange (n : Int) (h : InRange n) : Integer := ⟨n, h.1, h.2⟩

/-- The number as an `Integer`, when the range holds it. -/
def ofInt? (n : Int) : Option Integer :=
  if h : InRange n then some (ofInRange n h) else none

theorem ofInt?_eq_some_iff {n : Int} {a : Integer} : ofInt? n = some a ↔ a.val = n := by
  unfold ofInt?
  split
  · constructor
    · intro h; cases h; rfl
    · intro h; subst h; rfl
  · next hn => exact ⟨nofun, fun h => absurd (h ▸ inRange_val a) hn⟩

theorem ofInt?_eq_none_iff {n : Int} : ofInt? n = none ↔ ¬ InRange n := by
  unfold ofInt?; split <;> simp_all

/-! ## Checked arithmetic -/

/-- The sum, when it is in range. -/
def add? (a b : Integer) : Option Integer := ofInt? (a.val + b.val)

/-- The difference, when it is in range. -/
def sub? (a b : Integer) : Option Integer := ofInt? (a.val - b.val)

/-- The product, when it is in range. -/
def mul? (a b : Integer) : Option Integer := ofInt? (a.val * b.val)

/-- The quotient rounded toward zero, when it is in range. The quotient by zero counts as zero
here; callers ask about a zero divisor first. -/
def div? (a b : Integer) : Option Integer := ofInt? (a.val.tdiv b.val)

/-- The opposite, when it is in range: only the smallest value has none. -/
def neg? (a : Integer) : Option Integer := ofInt? (-a.val)

/-! ## Reading and writing -/

/-- The number in decimal, with a leading `-` when it is negative. -/
def text (a : Integer) : String := toString a.val

/-- The number that a run of decimal digits denotes, leading zeros allowed. There is none for an
empty run, for a run with any other character in it, and when the number is out of range. -/
def ofDigits? (digits : String) : Option Integer :=
  if digits.toList ≠ [] ∧ digits.toList.all Char.isDigit then
    ofInt? (Nat.ofDigitChars 10 digits.toList 0)
  else none

/-- The number that an optional sign and a run of decimal digits denote. -/
def read? (text : String) : Option Integer :=
  match text.toList with
  | '+' :: digits => ofDigits? (String.ofList digits)
  | '-' :: digits =>
    if digits ≠ [] ∧ digits.all Char.isDigit then
      ofInt? (-(Nat.ofDigitChars 10 digits 0 : Int))
    else none
  | _ => ofDigits? text

/-- A run of digits denotes what it says when that is in range. -/
theorem ofDigits?_eq_some_iff {digits : String} {a : Integer} :
    ofDigits? digits = some a ↔
      digits.toList ≠ [] ∧ digits.toList.all Char.isDigit ∧
        a.val = Nat.ofDigitChars 10 digits.toList 0 := by
  unfold ofDigits?
  split
  · next h => simp [ofInt?_eq_some_iff, h]
  · next h => exact ⟨nofun, fun hs => absurd ⟨hs.1, hs.2.1⟩ h⟩

end Integer

end SayLang
