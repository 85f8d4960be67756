import Mathlib.Logic.Function.Iterate
import SayLang.Parser.Session
import SayLang.Proofs.InStep

/-!
# The states that a parser goes through

A run of the parser answers where its cursor stops, but not where it has been. A `Trail` is a cursor
that remembers that. Parsers are written over any cursor, so they run on a trail as well, and behind
the run the trail holds every state that the parser was in, inside whatever form and behind whatever
was found wrong.

> `Trail.LeadsFrom.states_eq`: these are the states that so many steps lead to, one for each step.
> `Parse.programs_inStep`: on a trail a parser goes in step with one that leaves none.
> `Session.answerAll_eq_programs`: a parser used repeatedly parses one program after the other.
-/

namespace SayLang

/-! ## Cursors that remember -/

/-- A cursor and the states that it has gone through. -/
structure Trail (κ : Type) where
  /-- The states before, the first one in front. -/
  past : List κ
  /-- The state it is in. -/
  now : κ

namespace Trail

variable {κ κ' : Type}

/-- A cursor that has not been moved yet. -/
def start (cursor : κ) : Trail κ := ⟨[], cursor⟩

/-- All states, up to the one it is in. -/
def states (trail : Trail κ) : List κ := trail.past ++ [trail.now]

variable [Cursor κ] [Cursor κ']

instance : Cursor (Trail κ) where
  current trail := Cursor.current trail.now
  peek trail := Cursor.peek trail.now
  advance trail := ⟨trail.states, Cursor.advance trail.now⟩
  position trail := Cursor.position trail.now
  ahead trail := Cursor.ahead trail.now

/-- Each state is the one that so many steps lead to. -/
structure LeadsFrom (cursor : κ) (trail : Trail κ) : Prop where
  /-- So are the states before. -/
  past_eq : trail.past = (List.range trail.past.length).map fun i => Cursor.advance^[i] cursor
  /-- The state it is in comes behind these. -/
  now_eq : trail.now = Cursor.advance^[trail.past.length] cursor

theorem leadsFrom_start (cursor : κ) : (start cursor).LeadsFrom cursor := ⟨rfl, rfl⟩

/-- From the cursor on there is one state for each step. -/
theorem LeadsFrom.states_eq {cursor : κ} {trail : Trail κ} (h : trail.LeadsFrom cursor) :
    trail.states = (List.range (trail.past.length + 1)).map fun i => Cursor.advance^[i] cursor := by
  rw [List.range_succ, List.map_append, ← h.past_eq]
  exact congrArg (fun state => trail.past ++ [state]) h.now_eq

theorem LeadsFrom.advance {cursor : κ} {trail : Trail κ} (h : trail.LeadsFrom cursor) :
    (Cursor.advance trail).LeadsFrom cursor := by
  have hlength : (Cursor.advance trail).past.length = trail.past.length + 1 := List.length_append
  refine ⟨?_, ?_⟩
  · rw [hlength]
    exact h.states_eq
  · rw [hlength, Function.iterate_succ_apply', ← h.now_eq]
    rfl

/-- The state at a place is the one that so many steps lead to. -/
theorem LeadsFrom.get_states {cursor : κ} {trail : Trail κ} (h : trail.LeadsFrom cursor)
    (i : Fin trail.states.length) : trail.states.get i = Cursor.advance^[i.val] cursor := by
  rw [List.get_eq_getElem, List.getElem_of_eq h.states_eq i.isLt, List.getElem_map,
    List.getElem_range]

/-- A trail is paired with what the state it is in is paired with. -/
def coupling (coupling : Coupling κ κ') (cursor : κ) : Coupling (Trail κ) κ' where
  Paired trail cursor' := trail.LeadsFrom cursor ∧ coupling.Paired trail.now cursor'
  current_eq hpaired := coupling.current_eq hpaired.2
  peek_eq hpaired := coupling.peek_eq hpaired.2
  position_eq hpaired := coupling.position_eq hpaired.2
  advance hpaired := ⟨hpaired.1.advance, coupling.advance hpaired.2⟩

end Trail

/-! ## One program after the other -/

section programs

variable {κ κ' : Type} [Cursor κ] [Cursor κ'] {coupling : Coupling κ κ'}

/-- So many programs, each from where the one before it stopped. -/
def Parse.programs : Nat → Parse κ (List Program)
  | 0 => return []
  | count + 1 => do
    let first ← program
    return first :: (← programs count)

/-- A trail is paired with what leaves none (`Trail.coupling`), so this is about both. -/
theorem Parse.programs_inStep (hahead : ∀ {cursor cursor'}, coupling.Paired cursor cursor' →
    Cursor.ahead cursor' = Cursor.ahead cursor) (count : Nat) :
    InStep coupling (programs count) (programs count) := by
  induction count with
  | zero => exact pure_inStep _
  | succ count ih =>
    unfold programs
    apply (program_inStep hahead).bind
    intro first
    exact ih.bind fun _ => pure_inStep _

end programs

namespace Session

/-- The program that a reply gives, if it gives one. -/
def Reply.program? : Reply → Option Program
  | parsed program _ => some program
  | errors _ => none

/-- A parser used repeatedly answers one program after the other, and keeps what is found wrong. -/
theorem answerAll_eq_programs (requests : List Request) :
    ∀ session : Session,
      (session.answerAll requests).1.filterMap Reply.program? =
        ((Parse.programs (requests.count .parse)).run session.window).value ∧
      (session.answerAll requests).2 =
        ⟨((Parse.programs (requests.count .parse)).run session.window).state,
          session.diagnostics ++ ((Parse.programs (requests.count .parse)).run
            session.window).events.filterMap Event.diagnostic?⟩ := by
  induction requests with
  | nil =>
    intro session
    exact ⟨rfl, congrArg (Session.mk session.window) (List.append_nil _).symm⟩
  | cons request rest ih =>
    intro session
    obtain ⟨hvalue, hstate⟩ := ih (session.answer request).2
    cases request with
    | errors =>
      rw [List.count_cons_of_ne (by decide)]
      exact ⟨hvalue, hstate⟩
    | parse =>
      rw [List.count_cons_self, Parse.programs]
      simp only [Traced.run_bind, Traced.run_pure, List.append_nil, List.filterMap_append]
      refine ⟨congrArg (_ :: ·) hvalue, ?_⟩
      rw [← List.append_assoc]
      exact hstate

end Session

end SayLang
