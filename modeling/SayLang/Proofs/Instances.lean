import Mathlib.Data.Set.Insert
import SayLang.Parser.Climb
import SayLang.Proofs.Delivery

/-!
# Which instance evaluation answers

There is one `true`, one `false` and one null; every integer and every error that evaluation answers
is an object of its own.

> `evaluate_isInstance`: the object answered is the shared instance of its value, or else none of
> the objects that were there before. A second evaluation answers an equal value, and the very same
> object just for a boolean and null.
-/

namespace SayLang

/-- The shared instance of a value. An integer and an error have none. -/
def Value.shared? : Value → Option Shared
  | boolean b => some (if b then .truth else .falsehood)
  | null => some .null
  | integer _ | error _ => none

theorem Shared.shared?_value (which : Shared) : which.value.shared? = some which := by
  cases which <;> rfl

/-- None of the objects has a number that the supply has still to give out. -/
def Supply.FreshFor (supply : Supply) (live : Set Object) : Prop :=
  ∀ number value, Object.allocated number value ∈ live → number < supply.next

/-- Where there are live objects already, the object is an instance for its value to be answered as:
the shared one if the value has one, and none of the live ones if it has not. -/
def Object.IsInstance (live : Set Object) (object : Object) : Prop :=
  match object.value.shared? with
  | some which => object = .shared which
  | none => ∀ other ∈ live, object.same other = false

namespace Object.Handed

variable {first next : Nat} {value : Value} {object : Object}

/-- A value that has a shared instance is handed out as that. -/
theorem eq_shared (h : Handed first next value object) {which : Shared}
    (hshared : value.shared? = some which) : object = .shared which := by
  cases h with
  | shared which' =>
    rw [Shared.shared?_value, Option.some.injEq] at hshared
    rw [hshared]
  | integer _ _ | error _ _ => cases hshared

/-- Any other value is handed out by a number taken for it. -/
theorem eq_allocated (h : Handed first next value object) (hshared : value.shared? = none) :
    ∃ number, object = .allocated number value ∧ first ≤ number ∧ number < next := by
  cases h with
  | shared which =>
    rw [Shared.shared?_value] at hshared
    cases hshared
  | integer hle hlt | error hle hlt => exact ⟨_, rfl, hle, hlt⟩

/-- An object with a number that the supply had still to give out is none of the live ones. -/
theorem isInstance {live : Set Object} {supply : Supply} (hlive : supply.FreshFor live)
    (h : Handed supply.next next value object) : object.IsInstance live := by
  unfold IsInstance
  rw [h.value_eq]
  split
  next which hshared => exact h.eq_shared hshared
  next hshared =>
    obtain ⟨number, rfl, hle, -⟩ := h.eq_allocated hshared
    intro other hother
    cases other with
    | shared _ => rfl
    | allocated number' value' =>
      have hlt := hlive number' value' hother
      exact decide_eq_false (by omega)

/-- The supply left is fresh for the live objects and for the one handed out. -/
theorem freshFor_insert {live : Set Object} {supply after : Supply} (hlive : supply.FreshFor live)
    (hle : supply.next ≤ after.next) (h : Handed first after.next value object) :
    after.FreshFor (insert object live) := by
  intro number value' hmem
  rcases Set.mem_insert_iff.mp hmem with rfl | hmem
  · cases h with
    | integer _ hlt | error _ hlt => exact hlt
  · exact Nat.lt_of_lt_of_le (hlive number value' hmem) hle

/-- A value handed out twice, the first object still being live, is the same instance both times
just when it has a shared one. -/
theorem same_eq_isSome {next' : Nat} {later : Supply} {object' : Object}
    (h : Handed first next value object) (hlive : later.FreshFor {object})
    (h' : Handed later.next next' value object') :
    object.same object' = value.shared?.isSome := by
  cases hshared : value.shared? with
  | some which =>
    rw [h.eq_shared hshared, h'.eq_shared hshared]
    exact same_iff_of_shared.mpr rfl
  | none =>
    obtain ⟨number, rfl, -, -⟩ := h.eq_allocated hshared
    obtain ⟨number', rfl, hle, -⟩ := h'.eq_allocated hshared
    have hlt := hlive number value rfl
    exact decide_eq_false (by omega)

end Object.Handed

/-- The object that evaluation answers is the shared instance of its value, or an object that is
none of the live ones. Evaluating the node once more, while that object is still live, answers an
equal value, and the same instance exactly when the value has a shared one. -/
theorem evaluate_isInstance (node : Node) (live : Set Object) (supply : Supply)
    (hlive : supply.FreshFor live) :
    let first := node.evaluate.run supply
    first.value.IsInstance live ∧ first.state.FreshFor (insert first.value live) ∧
      ∀ later : Supply, later.FreshFor {first.value} →
        let second := node.evaluate.run later
        second.value.value = first.value.value ∧
          first.value.same second.value = first.value.value.shared?.isSome := by
  intro first
  have hfirst := node.delivers supply
  refine ⟨hfirst.handed.isInstance hlive, hfirst.handed.freshFor_insert hlive hfirst.le, ?_⟩
  intro later hlater second
  have hsecond := node.delivers later
  rw [hfirst.handed.value_eq, hsecond.handed.value_eq]
  exact ⟨rfl, hfirst.handed.same_eq_isSome hlater hsecond.handed⟩

/-- Such a node is a quotient by zero, evaluated when two objects have been allocated. -/
theorem evaluate_isInstance_of_quotient :
    let node := Node.program (parse "1 / 0").program
    let live : Set Object := {.allocated 0 (.error "early"), .allocated 1 (.error "late")}
    let first := node.evaluate.run ⟨2⟩
    (Supply.mk 2).FreshFor live ∧
      first.value.IsInstance live ∧ first.state.FreshFor (insert first.value live) ∧
      ∀ later : Supply, later.FreshFor {first.value} →
        let second := node.evaluate.run later
        second.value.value = first.value.value ∧
          first.value.same second.value = first.value.value.shared?.isSome := by
  intro node live first
  have hlive : (Supply.mk 2).FreshFor live := by
    intro number value hmem
    rcases hmem with h | h <;> cases h <;> decide
  exact ⟨hlive, evaluate_isInstance node live ⟨2⟩ hlive⟩

end SayLang
