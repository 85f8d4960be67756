import SayLang.Traced
import SayLang.Value

/-!
# Instances of values

The language compares booleans, null and errors by instance and not by content, so a running program
deals in `Object`s. There is one shared instance each of `true`, `false` and null. Every other
object was allocated, and its number tells it from all objects allocated before.

> `Object.same_iff_of_shared`: a shared instance is the same as another object only if that is the
> very shared instance.

`Object.deliver` is how evaluation hands out a value: a boolean or null as its shared instance, an
integer or an error as a new object.
-/

namespace SayLang

/-- The shared instances. -/
inductive Shared where
  /-- The one `true`. -/
  | truth
  /-- The one `false`. -/
  | falsehood
  /-- The one null. -/
  | null
deriving DecidableEq

/-- The value of a shared instance. -/
def Shared.value : Shared → Value
  | truth => .boolean true
  | falsehood => .boolean false
  | null => .null

/-- An instance of a value. -/
inductive Object where
  /-- A shared instance. -/
  | shared (which : Shared)
  /-- An object allocated on its own, with its number. -/
  | allocated (number : Nat) (value : Value)
deriving DecidableEq

/-- Numbers for new objects; those from `next` on were never given out. -/
structure Supply where
  /-- The number of the next object. -/
  next : Nat

namespace Object

/-- The value of an object. -/
def value : Object → Value
  | shared s => s.value
  | allocated _ value => value

/-- The shared instance that the object is, if it is one. -/
def shared? : Object → Option Shared
  | shared s => some s
  | allocated _ _ => none

/-- Are two objects the same instance? -/
def same : Object → Object → Bool
  | shared s, shared t => s = t
  | allocated m _, allocated n _ => m = n
  | _, _ => false

/-- A shared instance is the same as another object only if that is this very instance. -/
theorem same_iff_of_shared {s : Shared} {object : Object} :
    same (shared s) object = true ↔ object = shared s := by
  cases object <;> simp [same, eq_comm]

/-- Does the object count as true in a condition? All do but the shared `false` and the shared
null. -/
def isTruthy (object : Object) : Bool :=
  !(object.same (shared .falsehood) || object.same (shared .null))

/-- The shared instance of a truth value. -/
def ofBool (b : Bool) : Object := shared (if b then .truth else .falsehood)

variable {ε : Type}

/-- A new object with the given value. -/
def allocate (value : Value) : Traced Supply ε Object := do
  let number ← Traced.look Supply.next
  Traced.update fun supply => ⟨supply.next + 1⟩
  return allocated number value

/-- The value as an object: the shared instance of a boolean or null, a new object for an integer or
an error. -/
def deliver : Value → Traced Supply ε Object
  | .boolean b => return ofBool b
  | .null => return shared .null
  | value => allocate value

/-- What is delivered has the value asked for. -/
theorem value_deliver (v : Value) (supply : Supply) :
    ((deliver v : Traced Supply ε Object).run supply).value.value = v := by
  cases v with
  | boolean b => cases b <;> rfl
  | _ => rfl

end Object

end SayLang
