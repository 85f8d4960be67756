import SayLang.Proofs.Outlook
import SayLang.Proofs.Standing

/-!
# Runs that only go forward

A run records where it enters statements and expressions and which tokens it finds wrong. `Marks`
say how far it has come: no statement and no expression may be entered before the mark again, and no
token before the mark may be found wrong any more. Events that keep to the marks, each as the ones
before it have left them, are `Steady`.

> `steady_append`: events are steady when the first ones are and the others are behind them.
> `Steady.in_order`: steady events of one sort come in the order of their positions.
> `onward_bind`: a run goes onward when its parts do.

An entry puts its mark behind the token, so nothing is entered twice. A diagnostic leaves the mark
at the token: a construct that breaks may have its callers break at the same token.
-/

namespace SayLang

/-! ## The tokens of a text by position -/

/-- The token at every position. From the last position on there is only the end of input. -/
structure Course where
  /-- The token at a position. -/
  token : Nat → Token
  /-- The position of the first end of input. -/
  last : Nat
  /-- All tokens before that position are others, and none from there on. -/
  kind_ne_iff (position : Nat) : (token position).kind ≠ .eof ↔ position < last

theorem Course.kind_eq_iff (course : Course) (position : Nat) :
    (course.token position).kind = .eof ↔ course.last ≤ position := by
  rw [← not_iff_not, Nat.not_le]
  exact course.kind_ne_iff position

section on

variable {κ : Type} [Cursor κ] {course : Course} {cursor : κ}

/-- The cursor sees the tokens of the course from its position on. -/
def Cursor.On (course : Course) (cursor : κ) : Prop :=
  ∀ n, Cursor.nth cursor n = course.token (Cursor.position cursor + n)

theorem Cursor.On.current_eq (h : Cursor.On course cursor) :
    Cursor.current cursor = course.token (Cursor.position cursor) :=
  h 0

theorem Cursor.On.position_lt (h : Cursor.On course cursor)
    (hne : (Cursor.current cursor).kind ≠ .eof) : Cursor.position cursor < course.last := by
  rwa [h.current_eq, course.kind_ne_iff] at hne

variable [LawfulCursor κ]

theorem Cursor.On.peek_eq (h : Cursor.On course cursor) :
    Cursor.peek cursor = course.token (Cursor.position cursor + 1) := by
  rw [← Cursor.nth_one]
  exact h 1

theorem Cursor.On.advance (h : Cursor.On course cursor) :
    Cursor.On course (Cursor.advance cursor) := by
  intro n
  have hnth := h (n + 1)
  rw [LawfulCursor.position_advance, Nat.add_assoc, Nat.add_comm 1]
  exact hnth

/-- A step from a token other than the end of input does not lead beyond that. -/
theorem Cursor.On.position_advance_le (h : Cursor.On course cursor)
    (hne : (Cursor.current cursor).kind ≠ .eof) :
    Cursor.position (Cursor.advance cursor) ≤ course.last := by
  rw [LawfulCursor.position_advance]
  exact h.position_lt hne

end on

/-! ## Marks -/

/-- How far a run has come: where the next statement, the next expression and the next diagnostic
may be, at the earliest. -/
structure Marks where
  /-- Statements are entered from there on. -/
  statement : Nat
  /-- Expressions are entered from there on. -/
  expression : Nat
  /-- Tokens are found wrong from there on. -/
  diagnostic : Nat

namespace Marks

/-- The marks of a run that starts. -/
def start : Marks := ⟨0, 0, 0⟩

/-- The event is not before its mark. Statements are entered at tokens, expressions at tokens or at
the first end of input, and a diagnostic is about the token at its position. -/
def Allows (marks : Marks) (course : Course) : Event → Prop
  | .statement position _ => marks.statement ≤ position ∧ position < course.last
  | .expression position => marks.expression ≤ position ∧ position ≤ course.last
  | .diagnostic position found =>
    marks.diagnostic ≤ position ∧ found.IsAbout (course.token position)

/-- The marks after an event. -/
def after (marks : Marks) : Event → Marks
  | .statement position _ => { marks with statement := position + 1 }
  | .expression position => { marks with expression := position + 1 }
  | .diagnostic position _ => { marks with diagnostic := position }

/-- The marks after all events. -/
def afterAll (marks : Marks) (events : List Event) : Marks := events.foldl after marks

theorem afterAll_append (marks : Marks) (first second : List Event) :
    marks.afterAll (first ++ second) = (marks.afterAll first).afterAll second :=
  List.foldl_append

end Marks

/-- Each event keeps to the marks that the ones before it leave. -/
def Steady (course : Course) : Marks → List Event → Prop
  | _, [] => True
  | marks, event :: events => marks.Allows course event ∧ Steady course (marks.after event) events

section steady

variable {course : Course}

/-- Events are steady when the first ones are and the others are behind them. -/
theorem steady_append (first second : List Event) : ∀ marks : Marks,
    Steady course marks (first ++ second) ↔
      Steady course marks first ∧ Steady course (marks.afterAll first) second := by
  induction first with
  | nil => intro marks; exact (and_iff_right trivial).symm
  | cons event first ih =>
    intro marks
    show _ ∧ Steady course _ (first ++ second) ↔ (_ ∧ _) ∧ _
    rw [ih, and_assoc]
    rfl

/-- Events of one sort come in the order of their places, if each of them is not before the mark of
the sort and puts that mark `step` behind its place, and no others move it. What is true of each
when it is allowed is true of all. -/
theorem Steady.in_order {α : Type} (sort? : Event → Option α) (place : α → Nat)
    (mark : Marks → Nat) (step : Nat) (good : α → Prop)
    (hsort : ∀ (marks : Marks) (event : Event) (a : α), sort? event = some a →
      marks.Allows course event →
        mark marks ≤ place a ∧ mark (marks.after event) = place a + step ∧ good a)
    (hother : ∀ (marks : Marks) (event : Event), sort? event = none →
      mark (marks.after event) = mark marks)
    {events : List Event} :
    ∀ {marks : Marks}, Steady course marks events →
      (∀ a ∈ events.filterMap sort?, mark marks ≤ place a ∧ good a) ∧
      (events.filterMap sort?).Pairwise fun a later => place a + step ≤ place later := by
  induction events with
  | nil => exact fun _ => ⟨List.forall_mem_nil _, .nil⟩
  | cons event events ih =>
    intro marks h
    obtain ⟨hallows, hrest⟩ := h
    obtain ⟨hbound, hpairwise⟩ := ih hrest
    cases hevent : sort? event with
    | none =>
      rw [hother _ _ hevent] at hbound
      rw [List.filterMap_cons_none hevent]
      exact ⟨hbound, hpairwise⟩
    | some a =>
      obtain ⟨hle, hafter, hgood⟩ := hsort _ _ _ hevent hallows
      rw [hafter] at hbound
      rw [List.filterMap_cons_some hevent]
      refine ⟨List.forall_mem_cons.mpr ⟨⟨hle, hgood⟩, fun later hlater => ?_⟩,
        hpairwise.cons fun later hlater => (hbound later hlater).1⟩
      obtain ⟨hbehind, hgood⟩ := hbound later hlater
      exact ⟨by omega, hgood⟩

end steady

namespace Parse

/-! ## Runs that go onward -/

variable {κ α β : Type} {course : Course} {marks : Marks}

/-- The events of the run are steady, and it ends as `post` says. -/
def Onward (course : Course) (marks : Marks) (p : Parse κ α) (cursor : κ)
    (post : Marks → α → κ → Prop) : Prop :=
  Steady course marks (p.run cursor).events ∧
    post (marks.afterAll (p.run cursor).events) (p.run cursor).value (p.run cursor).state

/-- What holds at the end may be weakened. -/
theorem Onward.mono {p : Parse κ α} {cursor : κ} {post post' : Marks → α → κ → Prop}
    (h : Onward course marks p cursor post)
    (hpost : ∀ marks value after, post marks value after → post' marks value after) :
    Onward course marks p cursor post' :=
  ⟨h.1, hpost _ _ _ h.2⟩

theorem onward_of_run_eq {p : Parse κ α} {cursor after : κ} {value : α}
    {post : Marks → α → κ → Prop} (h : p.run cursor = ⟨value, after, []⟩) :
    Onward course marks p cursor post ↔ post marks value after := by
  unfold Onward
  rw [h]
  exact and_iff_right trivial

@[simp] theorem onward_pure (a : α) (cursor : κ) (post : Marks → α → κ → Prop) :
    Onward course marks (pure a : Parse κ α) cursor post ↔ post marks a cursor :=
  onward_of_run_eq rfl

/-- A run goes onward when its first part does and its second part does behind that. -/
@[simp] theorem onward_bind (p : Parse κ α) (f : α → Parse κ β) (cursor : κ)
    (post : Marks → β → κ → Prop) :
    Onward course marks (p >>= f) cursor post ↔
      Onward course marks p cursor fun marks value after =>
        Onward course marks (f value) after post := by
  unfold Onward
  rw [Traced.run_bind, steady_append, Marks.afterAll_append, and_assoc]

@[simp] theorem onward_look (f : κ → α) (cursor : κ) (post : Marks → α → κ → Prop) :
    Onward course marks (Traced.look f) cursor post ↔ post marks (f cursor) cursor :=
  onward_of_run_eq rfl

/-- A record has to be allowed, and moves its mark. -/
@[simp] theorem onward_record (event : Event) (cursor : κ) (post : Marks → Unit → κ → Prop) :
    Onward course marks (Traced.record event) cursor post ↔
      marks.Allows course event ∧ post (marks.after event) () cursor := by
  unfold Onward
  rw [Traced.run_record]
  exact and_congr_left fun _ => and_iff_left trivial

variable [Cursor κ]

@[simp] theorem onward_current (cursor : κ) (post : Marks → Token → κ → Prop) :
    Onward course marks current cursor post ↔ post marks (Cursor.current cursor) cursor :=
  onward_look _ _ _

@[simp] theorem onward_peek (cursor : κ) (post : Marks → Token → κ → Prop) :
    Onward course marks peek cursor post ↔ post marks (Cursor.peek cursor) cursor :=
  onward_look _ _ _

@[simp] theorem onward_position (cursor : κ) (post : Marks → Nat → κ → Prop) :
    Onward course marks position cursor post ↔ post marks (Cursor.position cursor) cursor :=
  onward_look _ _ _

@[simp] theorem onward_name (cursor : κ) (post : Marks → Name → κ → Prop) :
    Onward course marks name cursor post ↔
      post marks (.ofToken (Cursor.current cursor)) cursor :=
  onward_of_run_eq rfl

@[simp] theorem onward_advance (cursor : κ) (post : Marks → Unit → κ → Prop) :
    Onward course marks advance cursor post ↔ post marks () (Cursor.advance cursor) :=
  onward_of_run_eq rfl

@[simp] theorem onward_optionalSemicolon (cursor : κ) (post : Marks → Unit → κ → Prop) :
    Onward course marks optionalSemicolon cursor post ↔
      post marks ()
        (if (Cursor.peek cursor).kind = .semicolon then Cursor.advance cursor else cursor) :=
  onward_of_run_eq (run_optionalSemicolon cursor)

/-- What is rejected is the token looked at. -/
@[simp] theorem onward_reject (problem : Token → Problem) (cursor : κ)
    (post : Marks → Expression → κ → Prop) :
    Onward course marks (reject problem) cursor post ↔
      marks.Allows course (.diagnostic (Cursor.position cursor)
        ⟨(Cursor.current cursor).line, problem (Cursor.current cursor)⟩) ∧
      post { marks with diagnostic := Cursor.position cursor }
        (.error (Cursor.current cursor) (problem (Cursor.current cursor)).message) cursor := by
  unfold Onward
  rw [run_reject]
  exact and_congr_left fun _ => and_iff_left trivial

/-- What is not what was asked for is the token ahead. -/
@[simp] theorem onward_expecting (kind : Kind) (broken : Expression → α) (next : Parse κ α)
    (cursor : κ) (post : Marks → α → κ → Prop) :
    Onward course marks (expecting kind broken next) cursor post ↔
      ((Cursor.peek cursor).kind = kind →
        Onward course marks next (Cursor.advance cursor) post) ∧
      ((Cursor.peek cursor).kind ≠ kind →
        marks.Allows course (.diagnostic (Cursor.position cursor + 1)
          ⟨(Cursor.peek cursor).line, .unexpected kind (Cursor.peek cursor).kind⟩) ∧
        post { marks with diagnostic := Cursor.position cursor + 1 }
          (broken (.error (Cursor.peek cursor)
            (Problem.unexpected kind (Cursor.peek cursor).kind).message)) cursor) := by
  by_cases h : (Cursor.peek cursor).kind = kind
  · simp only [Onward, run_expecting_of_eq broken next h, h, ne_eq, not_true_eq_false,
      false_implies, and_true, true_implies]
  · simp only [Onward, run_expecting_of_ne broken next h, h, ne_eq, not_false_eq_true,
      false_implies, true_and, true_implies]
    exact and_congr_left fun _ => and_iff_left trivial

end Parse

end SayLang
