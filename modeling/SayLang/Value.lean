import SayLang.Integer

/-!
# Values

What a program evaluates to: an integer, a truth value, null, or an error with a message. An error
is a value like the others; `Fault` lists the reasons for which evaluation itself makes one.
-/

namespace SayLang

/-- A runtime value. -/
inductive Value where
  /-- An integer. -/
  | integer (n : Integer)
  /-- A truth value. -/
  | boolean (b : Bool)
  /-- The absence of a value. -/
  | null
  /-- An error, with what went wrong. -/
  | error (message : String)
deriving DecidableEq

namespace Value

/-- The value as it is shown to a reader. -/
def describe : Value → String
  | integer n => n.text
  | boolean b => if b then "true" else "false"
  | null => "null"
  | error message => "ERROR: " ++ message

/-- The name of the kind of value. -/
def typeName : Value → String
  | integer _ => "INTEGER"
  | boolean _ => "BOOLEAN"
  | null => "NULL"
  | error _ => "ERROR"

/-- Is the value an error? -/
def isError : Value → Bool
  | error _ => true
  | _ => false

end Value

/-- Why evaluation answers an error. -/
inductive Fault where
  /-- The node has no rule. -/
  | unsupported
  /-- The divisor is zero. -/
  | divisionByZero
  /-- The result of an operator between two integers is out of range. -/
  | overflow (left : Integer) (operator : String) (right : Integer)
  /-- The opposite of an integer is out of range. -/
  | negationOverflow (operand : Integer)

/-- The wording of a fault. -/
def Fault.message : Fault → String
  | unsupported => "Error encountered!"
  | divisionByZero => "division by zero"
  | overflow left operator right =>
    "integer overflow: " ++ left.text ++ " " ++ operator ++ " " ++ right.text
  | negationOverflow operand => "integer overflow: -" ++ operand.text

/-- The error value of a fault. -/
def Value.ofFault (fault : Fault) : Value := .error fault.message

/-- An integer that may be out of range, with the fault to answer then. -/
def Value.checked (fault : Fault) : Option Integer → Value
  | some n => .integer n
  | none => .ofFault fault

end SayLang
