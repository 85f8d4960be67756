import SayLang.Proofs.Sight

/-!
# Runs up to the first diagnostic

What a piece of the parser does before anything is found wrong, and what it finds wrong first, are
the two things to know of it. `Parse.Ensures faulty p cursor post` says both at once: when the run
of `p` from `cursor` records no diagnostic, its value and the cursor after it satisfy `post`;
otherwise `faulty` holds of the first diagnostic and its position.

> `ensures_bind`: a sequence ensures what its second part ensures after its first.

There is one such equivalence for each step of the parser, so what a form of the grammar ensures
unfolds into what its parts ensure. A claim about clean runs alone leaves `faulty` always true; a
claim that a run is clean leaves it never true.
-/

namespace SayLang

/-! ## The first diagnostic -/

/-- The diagnostic that an event records, with the position of the token it is about. -/
def Event.located? : Event → Option (Nat × Diagnostic)
  | diagnostic position found => some (position, found)
  | _ => none

/-- The first diagnostic among events, with its position. -/
def firstDiagnostic (events : List Event) : Option (Nat × Diagnostic) :=
  events.findSome? Event.located?

theorem firstDiagnostic_append (first second : List Event) :
    firstDiagnostic (first ++ second) = (firstDiagnostic first).or (firstDiagnostic second) :=
  List.findSome?_append

/-- The first diagnostic is the head of all diagnostics. -/
theorem head?_diagnostics (events : List Event) :
    (events.filterMap Event.diagnostic?).head? = (firstDiagnostic events).map Prod.snd := by
  induction events with
  | nil => rfl
  | cons event events ih =>
    cases event with
    | statement position token => exact ih
    | expression position => exact ih
    | diagnostic position found => rfl

/-- There are no diagnostics at all when there is no first one. -/
theorem diagnostics_eq_nil_iff_firstDiagnostic (events : List Event) :
    events.filterMap Event.diagnostic? = [] ↔ firstDiagnostic events = none := by
  rw [← List.head?_eq_none_iff, head?_diagnostics, Option.map_eq_none_iff]

/-! ## What a run ensures -/

namespace Parse

variable {κ α β : Type} {faulty : Nat → Diagnostic → Prop}

/-- A run that records no diagnostic ends as `post` says, and a run that records some has `faulty`
hold of the first. -/
def Ensures (faulty : Nat → Diagnostic → Prop) (p : Parse κ α) (cursor : κ)
    (post : α → κ → Prop) : Prop :=
  match firstDiagnostic (p.run cursor).events with
  | none => post (p.run cursor).value (p.run cursor).state
  | some found => faulty found.1 found.2

/-- What is ensured may be weakened. -/
theorem Ensures.mono {p : Parse κ α} {cursor : κ} {post post' : α → κ → Prop}
    (h : Ensures faulty p cursor post)
    (hpost : ∀ value after, post value after → post' value after) :
    Ensures faulty p cursor post' := by
  unfold Ensures at h ⊢
  split
  next hnone => rw [hnone] at h; exact hpost _ _ h
  next found hsome => rw [hsome] at h; exact h

@[simp] theorem ensures_pure (a : α) (cursor : κ) (post : α → κ → Prop) :
    Ensures faulty (pure a : Parse κ α) cursor post ↔ post a cursor := Iff.rfl

/-- A sequence ensures what its second part ensures after its first. -/
@[simp] theorem ensures_bind (p : Parse κ α) (f : α → Parse κ β) (cursor : κ)
    (post : β → κ → Prop) :
    Ensures faulty (p >>= f) cursor post ↔
      Ensures faulty p cursor fun value after => Ensures faulty (f value) after post := by
  unfold Ensures
  rw [Traced.run_bind]
  simp only [firstDiagnostic_append]
  cases firstDiagnostic (p.run cursor).events with
  | none => simp only [Option.none_or]
  | some found =>
    -- what the second part does no longer matters
    simp only [Option.some_or]

@[simp] theorem ensures_record_statement (position : Nat) (token : Token) (cursor : κ)
    (post : Unit → κ → Prop) :
    Ensures faulty (Traced.record (.statement position token)) cursor post ↔ post () cursor :=
  Iff.rfl

@[simp] theorem ensures_record_expression (position : Nat) (cursor : κ) (post : Unit → κ → Prop) :
    Ensures faulty (Traced.record (.expression position)) cursor post ↔ post () cursor := Iff.rfl

@[simp] theorem ensures_look (f : κ → α) (cursor : κ) (post : α → κ → Prop) :
    Ensures faulty (Traced.look f) cursor post ↔ post (f cursor) cursor := Iff.rfl

variable [Cursor κ]

@[simp] theorem ensures_current (cursor : κ) (post : Token → κ → Prop) :
    Ensures faulty current cursor post ↔ post (Cursor.current cursor) cursor := Iff.rfl

@[simp] theorem ensures_peek (cursor : κ) (post : Token → κ → Prop) :
    Ensures faulty peek cursor post ↔ post (Cursor.peek cursor) cursor := Iff.rfl

@[simp] theorem ensures_position (cursor : κ) (post : Nat → κ → Prop) :
    Ensures faulty position cursor post ↔ post (Cursor.position cursor) cursor := Iff.rfl

@[simp] theorem ensures_advance (cursor : κ) (post : Unit → κ → Prop) :
    Ensures faulty advance cursor post ↔ post () (Cursor.advance cursor) := Iff.rfl

@[simp] theorem ensures_name (cursor : κ) (post : Name → κ → Prop) :
    Ensures faulty name cursor post ↔ post (.ofToken (Cursor.current cursor)) cursor := Iff.rfl

/-- What is rejected is the token looked at. -/
@[simp] theorem ensures_reject (problem : Token → Problem) (cursor : κ)
    (post : Expression → κ → Prop) :
    Ensures faulty (reject problem) cursor post ↔
      faulty (Cursor.position cursor)
        ⟨(Cursor.current cursor).line, problem (Cursor.current cursor)⟩ := Iff.rfl

/-- A token asked for is consumed when it is ahead, and what is ahead is at fault otherwise. -/
@[simp] theorem ensures_expecting (kind : Kind) (broken : Expression → α) (next : Parse κ α)
    (cursor : κ) (post : α → κ → Prop) :
    Ensures faulty (expecting kind broken next) cursor post ↔
      ((Cursor.peek cursor).kind = kind → Ensures faulty next (Cursor.advance cursor) post) ∧
      ((Cursor.peek cursor).kind ≠ kind →
        faulty (Cursor.position cursor + 1)
          ⟨(Cursor.peek cursor).line, .unexpected kind (Cursor.peek cursor).kind⟩) := by
  by_cases h : (Cursor.peek cursor).kind = kind
  · simp only [Ensures, run_expecting_of_eq broken next h, h, ne_eq, not_true_eq_false,
      false_implies, and_true, true_implies]
  · simp only [Ensures, run_expecting_of_ne broken next h, h, ne_eq, not_false_eq_true,
      false_implies, true_and, true_implies]
    exact Iff.rfl

/-- A semicolon is skipped when it is ahead. -/
@[simp] theorem ensures_optionalSemicolon (cursor : κ) (post : Unit → κ → Prop) :
    Ensures faulty optionalSemicolon cursor post ↔
      post ()
        (if (Cursor.peek cursor).kind = .semicolon then Cursor.advance cursor else cursor) := by
  simp only [Ensures, run_optionalSemicolon]
  exact Iff.rfl

end Parse

end SayLang
