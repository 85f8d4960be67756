import SayLang.Parser.Basic

/-!
# Whole runs, under what is recorded in them

A run goes on behind what is found wrong. What may be said of its value then depends on what was
recorded. `Parse.Assuming recorded p cursor post` says that the value of `p` and the cursor after it
satisfy `post` whenever all diagnostics of the run are among those `recorded`.

> `assuming_bind`: a sequence satisfies what its second part satisfies after its first.

There is one such equivalence for each step of the parser, so what a form of the grammar satisfies
unfolds into what its parts satisfy. Taken for the diagnostics of the whole parse, `recorded` is the
same for all parts; taken to hold of nothing, this is about clean runs.
-/

namespace SayLang.Parse

variable {κ α β : Type} {recorded : Diagnostic → Prop}

/-- If all diagnostics of the run are recorded ones, it ends as `post` says. -/
def Assuming (recorded : Diagnostic → Prop) (p : Parse κ α) (cursor : κ) (post : α → κ → Prop) :
    Prop :=
  (∀ found ∈ (p.run cursor).events.filterMap Event.diagnostic?, recorded found) →
    post (p.run cursor).value (p.run cursor).state

/-- What is satisfied may be weakened. -/
theorem Assuming.mono {p : Parse κ α} {cursor : κ} {post post' : α → κ → Prop}
    (h : Assuming recorded p cursor post)
    (hpost : ∀ value after, post value after → post' value after) :
    Assuming recorded p cursor post' :=
  fun hrecorded => hpost _ _ (h hrecorded)

theorem assuming_of_run_eq {p : Parse κ α} {cursor after : κ} {value : α} {post : α → κ → Prop}
    (h : p.run cursor = ⟨value, after, []⟩) :
    Assuming recorded p cursor post ↔ post value after := by
  unfold Assuming
  rw [h]
  exact ⟨fun hpost => hpost nofun, fun hpost _ => hpost⟩

@[simp] theorem assuming_pure (a : α) (cursor : κ) (post : α → κ → Prop) :
    Assuming recorded (pure a : Parse κ α) cursor post ↔ post a cursor :=
  assuming_of_run_eq rfl

/-- A sequence satisfies what its second part satisfies after its first. -/
@[simp] theorem assuming_bind (p : Parse κ α) (f : α → Parse κ β) (cursor : κ)
    (post : β → κ → Prop) :
    Assuming recorded (p >>= f) cursor post ↔
      Assuming recorded p cursor fun value after => Assuming recorded (f value) after post := by
  unfold Assuming
  rw [Traced.run_bind]
  simp only [List.filterMap_append, List.forall_mem_append, and_imp]

@[simp] theorem assuming_look (f : κ → α) (cursor : κ) (post : α → κ → Prop) :
    Assuming recorded (Traced.look f) cursor post ↔ post (f cursor) cursor :=
  assuming_of_run_eq rfl

/-- Records other than diagnostics do not count. -/
theorem assuming_record {event : Event} (h : event.diagnostic? = none) (cursor : κ)
    (post : Unit → κ → Prop) :
    Assuming recorded (Traced.record event) cursor post ↔ post () cursor := by
  unfold Assuming
  rw [Traced.run_record, List.filterMap_cons_none h]
  exact ⟨fun hpost => hpost nofun, fun hpost _ => hpost⟩

@[simp] theorem assuming_record_statement (position : Nat) (token : Token) (cursor : κ)
    (post : Unit → κ → Prop) :
    Assuming recorded (Traced.record (.statement position token)) cursor post ↔ post () cursor :=
  assuming_record rfl cursor post

@[simp] theorem assuming_record_expression (position : Nat) (cursor : κ)
    (post : Unit → κ → Prop) :
    Assuming recorded (Traced.record (.expression position)) cursor post ↔ post () cursor :=
  assuming_record rfl cursor post

variable [Cursor κ]

@[simp] theorem assuming_current (cursor : κ) (post : Token → κ → Prop) :
    Assuming recorded current cursor post ↔ post (Cursor.current cursor) cursor :=
  assuming_look _ _ _

@[simp] theorem assuming_peek (cursor : κ) (post : Token → κ → Prop) :
    Assuming recorded peek cursor post ↔ post (Cursor.peek cursor) cursor :=
  assuming_look _ _ _

@[simp] theorem assuming_position (cursor : κ) (post : Nat → κ → Prop) :
    Assuming recorded position cursor post ↔ post (Cursor.position cursor) cursor :=
  assuming_look _ _ _

@[simp] theorem assuming_advance (cursor : κ) (post : Unit → κ → Prop) :
    Assuming recorded advance cursor post ↔ post () (Cursor.advance cursor) :=
  assuming_of_run_eq rfl

@[simp] theorem assuming_name (cursor : κ) (post : Name → κ → Prop) :
    Assuming recorded name cursor post ↔ post (.ofToken (Cursor.current cursor)) cursor :=
  assuming_of_run_eq rfl

/-- The error node of what is rejected comes with a diagnostic. -/
@[simp] theorem assuming_reject (problem : Token → Problem) (cursor : κ)
    (post : Expression → κ → Prop) :
    Assuming recorded (reject problem) cursor post ↔
      (recorded ⟨(Cursor.current cursor).line, problem (Cursor.current cursor)⟩ →
        post (.error (Cursor.current cursor) (problem (Cursor.current cursor)).message)
          cursor) := by
  unfold Assuming
  rw [run_reject]
  simp [Event.diagnostic?]

/-- So does the error node of what is not what was asked for. -/
@[simp] theorem assuming_expecting (kind : Kind) (broken : Expression → α) (next : Parse κ α)
    (cursor : κ) (post : α → κ → Prop) :
    Assuming recorded (expecting kind broken next) cursor post ↔
      ((Cursor.peek cursor).kind = kind → Assuming recorded next (Cursor.advance cursor) post) ∧
      ((Cursor.peek cursor).kind ≠ kind →
        recorded ⟨(Cursor.peek cursor).line, .unexpected kind (Cursor.peek cursor).kind⟩ →
        post (broken (.error (Cursor.peek cursor)
          (Problem.unexpected kind (Cursor.peek cursor).kind).message)) cursor) := by
  by_cases h : (Cursor.peek cursor).kind = kind
  · simp only [Assuming, run_expecting_of_eq broken next h, h, ne_eq, not_true_eq_false,
      false_implies, and_true, true_implies]
  · simp only [Assuming, run_expecting_of_ne broken next h, h, ne_eq, not_false_eq_true,
      false_implies, true_and, true_implies]
    simp [Event.diagnostic?]

/-- A semicolon is skipped when it is ahead. -/
@[simp] theorem assuming_optionalSemicolon (cursor : κ) (post : Unit → κ → Prop) :
    Assuming recorded optionalSemicolon cursor post ↔
      post ()
        (if (Cursor.peek cursor).kind = .semicolon then Cursor.advance cursor else cursor) :=
  assuming_of_run_eq (run_optionalSemicolon cursor)

end SayLang.Parse
