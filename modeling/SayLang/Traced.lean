/-!
# Computations that thread a state and record events

A `Traced σ ε α` takes a state of type `σ` and answers a value of type `α`, the state after it, and
the events of type `ε` that happened on the way, in order. Nothing recorded can be taken back: the
events of two computations one after the other are those of the first and then those of the second.

> `run_bind`: the value, the state and the events of a sequence.

Parsing threads a cursor over tokens and records what it enters and what it finds wrong; evaluation
threads a supply of instances and records the nodes it has no rule for.
-/

namespace SayLang

/-- What a traced computation answers. -/
structure Traced.Result (σ ε α : Type) where
  /-- The value computed. -/
  value : α
  /-- The state after it. -/
  state : σ
  /-- What happened on the way, in order. -/
  events : List ε

/-- A computation that threads a state and records events. -/
def Traced (σ ε α : Type) : Type := σ → Traced.Result σ ε α

namespace Traced

variable {σ ε α β γ : Type}

/-- The computation from a given state. -/
def run (p : Traced σ ε α) (state : σ) : Result σ ε α := p state

/-- The events of two computations, one after the other. It is their concatenation, but it leaves
the first events as they are when no others follow. -/
def join (first second : List ε) : List ε :=
  match second with
  | [] => first
  | _ :: _ => first ++ second

theorem join_eq_append (first second : List ε) : join first second = first ++ second := by
  cases second with
  | nil => exact (List.append_nil first).symm
  | cons _ _ => rfl

instance : Monad (Traced σ ε) where
  pure a := fun state => ⟨a, state, []⟩
  bind p f := fun state =>
    let first := p.run state
    let second := (f first.value).run first.state
    ⟨second.value, second.state, join first.events second.events⟩

@[simp] theorem run_pure (a : α) (state : σ) :
    (pure a : Traced σ ε α).run state = ⟨a, state, []⟩ := rfl

/-- The second computation starts where the first one ends, and its events come after. -/
@[simp] theorem run_bind (p : Traced σ ε α) (f : α → Traced σ ε β) (state : σ) :
    (p >>= f).run state =
      ⟨((f (p.run state).value).run (p.run state).state).value,
        ((f (p.run state).value).run (p.run state).state).state,
        (p.run state).events ++ ((f (p.run state).value).run (p.run state).state).events⟩ := by
  rw [← join_eq_append]
  rfl

@[ext] theorem ext {p q : Traced σ ε α} (h : ∀ state, p.run state = q.run state) : p = q :=
  funext h

instance : LawfulMonad (Traced σ ε) := LawfulMonad.mk' _
  (fun _ => rfl)
  (fun _ _ => by
    ext state
    simp only [run_bind, run_pure, List.nil_append])
  (fun _ _ _ => by
    ext state
    simp only [run_bind, List.append_assoc])

/-- The map of a computation changes its value alone. -/
@[simp] theorem run_map (f : α → β) (p : Traced σ ε α) (state : σ) :
    (f <$> p).run state = ⟨f (p.run state).value, (p.run state).state, (p.run state).events⟩ := rfl

/-- What a function sees in the state. -/
def look (f : σ → α) : Traced σ ε α := fun state => ⟨f state, state, []⟩

@[simp] theorem run_look (f : σ → α) (state : σ) :
    (look f : Traced σ ε α).run state = ⟨f state, state, []⟩ := rfl

/-- Looking leaves everything as it is. -/
theorem run_look_bind (view : σ → α) (f : α → Traced σ ε β) (state : σ) :
    (look view >>= f).run state = (f (view state)).run state := by
  rw [run_bind]
  rfl

/-- Changes the state. -/
def update (f : σ → σ) : Traced σ ε Unit := fun state => ⟨(), f state, []⟩

@[simp] theorem run_update (f : σ → σ) (state : σ) :
    (update f : Traced σ ε Unit).run state = ⟨(), f state, []⟩ := rfl

/-- Records one event. -/
def record (event : ε) : Traced σ ε Unit := fun state => ⟨(), state, [event]⟩

@[simp] theorem run_record (event : ε) (state : σ) :
    (record event : Traced σ ε Unit).run state = ⟨(), state, [event]⟩ := rfl

end Traced

end SayLang
