import SayLang.Proofs.Onward

/-!
# Parsing only goes forward

Whatever the text, right or wrong, the parser enters statements, enters expressions and finds tokens
wrong in the order of their positions. There are four situations of a run, by how far its marks are
in front of the cursor:

    Fresh     nothing happened at the current token yet,
    Begun     a statement was entered at it, and nothing else happened,
    Entered   an expression was entered at it as well, and nothing was found wrong,
    Settled   anything may have happened there, and the token ahead may have been found wrong.

A step takes any of them to the first one (`Settled.advance`). This is all that there is to it: no
piece of the parser goes back to the token it is at after having found the one ahead wrong.

> `Parse.statements_proceed`: that, of all statements up to the end of input.

There is one lemma for each form of the grammar, and the recursion is on the fuel. Nothing is asked
of the fuel.
-/

namespace SayLang.Parse

variable {κ α : Type} [Cursor κ] {course : Course} {marks : Marks} {cursor : κ}

/-! ## Situations -/

/-- The cursor is on the course, and the marks are at most so far in front of it. -/
structure Reached (course : Course) (statement expression diagnostic : Nat) (marks : Marks)
    (cursor : κ) : Prop where
  /-- It sees the tokens of the course. -/
  on : Cursor.On course cursor
  /-- Statements were entered up to there. -/
  statement_le : marks.statement ≤ Cursor.position cursor + statement
  /-- Expressions were entered up to there. -/
  expression_le : marks.expression ≤ Cursor.position cursor + expression
  /-- Tokens were found wrong up to there. -/
  diagnostic_le : marks.diagnostic ≤ Cursor.position cursor + diagnostic

/-- Nothing happened at the current token yet. -/
abbrev Fresh (course : Course) : Marks → κ → Prop := Reached course 0 0 0

/-- A statement may have been entered at it. -/
abbrev Begun (course : Course) : Marks → κ → Prop := Reached course 1 0 0

/-- A statement and an expression may have been entered at it. -/
abbrev Entered (course : Course) : Marks → κ → Prop := Reached course 1 1 0

/-- Anything may have happened at it, and the token ahead may have been found wrong. -/
abbrev Settled (course : Course) : Marks → κ → Prop := Reached course 1 1 1

theorem Fresh.begun (h : Fresh course marks cursor) : Begun course marks cursor :=
  { h with statement_le := Nat.le_succ_of_le h.statement_le }

theorem Begun.entered (h : Begun course marks cursor) : Entered course marks cursor :=
  { h with expression_le := Nat.le_succ_of_le h.expression_le }

theorem Entered.settled (h : Entered course marks cursor) : Settled course marks cursor :=
  { h with diagnostic_le := Nat.le_succ_of_le h.diagnostic_le }

theorem Begun.settled (h : Begun course marks cursor) : Settled course marks cursor :=
  Entered.settled (Begun.entered h)

theorem Fresh.settled (h : Fresh course marks cursor) : Settled course marks cursor :=
  Begun.settled (Fresh.begun h)

/-- Nothing happened yet at the token that a step leads to. -/
theorem Settled.advance [LawfulCursor κ] (h : Settled course marks cursor) :
    Fresh course marks (Cursor.advance cursor) := by
  refine ⟨h.on.advance, ?_, ?_, ?_⟩ <;> rw [LawfulCursor.position_advance]
  · exact h.statement_le
  · exact h.expression_le
  · exact h.diagnostic_le

theorem Settled.optionalSemicolon [LawfulCursor κ] (h : Settled course marks cursor) :
    Settled course marks
      (if (Cursor.peek cursor).kind = .semicolon then Cursor.advance cursor else cursor) := by
  split
  · exact Fresh.settled (Settled.advance h)
  · exact h

/-! ## Pieces of the parser -/

/-- The run goes onward, and what it leaves behind is settled. -/
abbrev Proceeds (course : Course) (marks : Marks) (p : Parse κ α) (cursor : κ) : Prop :=
  Onward course marks p cursor fun marks _ after => Settled course marks after

/-- That, of a piece that may enter an expression at the current token. -/
def ProceedsBegun (course : Course) (p : Parse κ α) : Prop :=
  ∀ ⦃marks : Marks⦄ ⦃cursor : κ⦄, Begun course marks cursor →
    Cursor.position cursor ≤ course.last → Proceeds course marks p cursor

/-- That, of a piece that has nothing to do with the current token. -/
def ProceedsSettled (course : Course) (p : Parse κ α) : Prop :=
  ∀ ⦃marks : Marks⦄ ⦃cursor : κ⦄, Settled course marks cursor → Proceeds course marks p cursor

/-- That, of a piece that may enter a statement at the current token. -/
def ProceedsFresh (course : Course) (p : Parse κ α) : Prop :=
  ∀ ⦃marks : Marks⦄ ⦃cursor : κ⦄, Fresh course marks cursor → Proceeds course marks p cursor

theorem reject_proceeds {problem : Token → Problem} (h : Entered course marks cursor)
    (hnames : (problem (Cursor.current cursor)).Names (Cursor.current cursor)) :
    Proceeds course marks (reject problem) cursor := by
  rw [Proceeds, onward_reject]
  refine ⟨⟨h.diagnostic_le, ?_⟩, h.on, h.statement_le, h.expression_le, Nat.le_succ _⟩
  rw [← h.on.current_eq]
  exact ⟨rfl, hnames⟩

theorem identifier_proceeds (h : Entered course marks cursor) :
    Proceeds course marks identifier cursor := by
  simp only [Proceeds, identifier, onward_bind, onward_name, onward_pure]
  exact Entered.settled h

theorem number_proceeds (h : Entered course marks cursor)
    (hk : (Cursor.current cursor).kind = .number) : Proceeds course marks number cursor := by
  simp only [Proceeds, number, onward_bind, onward_current]
  split
  next =>
    rw [onward_pure]
    exact Entered.settled h
  next => exact reject_proceeds h ⟨hk, rfl⟩

theorem boolean_proceeds (h : Entered course marks cursor) :
    Proceeds course marks boolean cursor := by
  simp only [Proceeds, boolean, onward_bind, onward_current, onward_pure]
  exact Entered.settled h

variable [LawfulCursor κ]

/-- A token asked for is consumed, or it is found wrong ahead. -/
theorem expecting_proceeds {kind : Kind} {broken : Expression → α} {next : Parse κ α}
    (h : Settled course marks cursor)
    (hnext : Fresh course marks (Cursor.advance cursor) →
      (Cursor.current (Cursor.advance cursor)).kind = kind →
      Proceeds course marks next (Cursor.advance cursor)) :
    Proceeds course marks (expecting kind broken next) cursor := by
  rw [Proceeds, onward_expecting, ← LawfulCursor.current_advance]
  refine ⟨hnext (Settled.advance h), fun _ => ?_⟩
  refine ⟨⟨h.diagnostic_le, ?_⟩, h.on, h.statement_le, h.expression_le, Nat.le_refl _⟩
  rw [LawfulCursor.current_advance, ← h.on.peek_eq]
  exact ⟨rfl, rfl⟩

/-- An expression behind a token other than the end of input. -/
theorem ProceedsBegun.advance {p : Parse κ α} (hp : ProceedsBegun course p)
    (h : Settled course marks cursor) (hne : (Cursor.current cursor).kind ≠ .eof) :
    Proceeds course marks p (Cursor.advance cursor) :=
  hp (Fresh.begun (Settled.advance h)) (h.on.position_advance_le hne)

/-! ## Openings -/

theorem unary_proceeds {operand : Parse κ Expression} (hoperand : ProceedsBegun course operand)
    (h : Entered course marks cursor) (hne : (Cursor.current cursor).kind ≠ .eof) :
    Proceeds course marks (unary operand) cursor := by
  simp only [Proceeds, unary, onward_bind, onward_current, onward_advance, onward_pure]
  exact hoperand.advance (Entered.settled h) hne

theorem group_proceeds {inner : Parse κ Expression} (hinner : ProceedsBegun course inner)
    (h : Entered course marks cursor) (hne : (Cursor.current cursor).kind ≠ .eof) :
    Proceeds course marks (group inner) cursor := by
  simp only [Proceeds, group, onward_bind, onward_advance]
  refine (hinner.advance (Entered.settled h) hne).mono fun marks _ after hafter => ?_
  refine expecting_proceeds hafter fun hparen _ => ?_
  rw [Proceeds, onward_pure]
  exact Fresh.settled hparen

theorem conditional_proceeds {condition : Parse κ Expression} {block : Parse κ Block}
    (hcondition : ProceedsBegun course condition) (hblock : ProceedsFresh course block)
    (h : Entered course marks cursor) :
    Proceeds course marks (conditional condition block) cursor := by
  simp only [Proceeds, conditional, onward_bind, onward_current]
  refine expecting_proceeds (Entered.settled h) fun hopen hk => ?_
  simp only [Proceeds, onward_bind, onward_advance]
  refine (hcondition.advance (Fresh.settled hopen) (by rw [hk]; decide)).mono
    fun marks₁ _ after₁ hafter₁ => ?_
  refine expecting_proceeds hafter₁ fun hclose _ => ?_
  refine expecting_proceeds (Fresh.settled hclose) fun hbrace _ => ?_
  rw [Proceeds, onward_bind]
  refine (hblock hbrace).mono fun marks₂ _ after₂ hafter₂ => ?_
  rw [onward_bind, onward_peek]
  split
  · rw [onward_bind, onward_advance]
    refine expecting_proceeds (Fresh.settled (Settled.advance hafter₂)) fun hbrace' _ => ?_
    simp only [Proceeds, onward_bind, onward_pure]
    exact hblock hbrace'
  · rw [onward_pure]
    exact hafter₂

theorem moreNames_proceed (fuel : Nat) :
    ProceedsSettled course (moreNames fuel : Parse κ (Except Expression (List Name))) := by
  induction fuel with
  | zero =>
    intro marks cursor h
    rw [Proceeds, moreNames, onward_pure]
    exact h
  | succ fuel ih =>
    intro marks cursor h
    rw [Proceeds, moreNames, onward_bind, onward_peek]
    split
    · rw [onward_bind, onward_advance]
      refine expecting_proceeds (Fresh.settled (Settled.advance h)) fun hname _ => ?_
      simp only [Proceeds, onward_bind, onward_name, onward_pure]
      exact ih (Fresh.settled hname)
    · rw [onward_pure]
      exact h

theorem parameters_proceed (fuel : Nat) :
    ProceedsSettled course (parameters fuel : Parse κ (Except Expression (List Name))) := by
  intro marks cursor h
  rw [Proceeds, parameters, onward_bind, onward_peek]
  split
  · rw [onward_bind, onward_advance, onward_pure]
    exact Fresh.settled (Settled.advance h)
  · refine expecting_proceeds h fun hname _ => ?_
    simp only [Proceeds, onward_bind, onward_name]
    refine (moreNames_proceed fuel (Fresh.settled hname)).mono fun marks others after hafter => ?_
    cases others with
    | error broken =>
      rw [onward_pure]
      exact hafter
    | ok names =>
      refine expecting_proceeds hafter fun hclose _ => ?_
      rw [Proceeds, onward_pure]
      exact Fresh.settled hclose

theorem function_proceeds (fuel : Nat) {block : Parse κ Block} (hblock : ProceedsFresh course block)
    (h : Entered course marks cursor) :
    Proceeds course marks (function (parameters fuel) block) cursor := by
  simp only [Proceeds, function, onward_bind, onward_current]
  refine expecting_proceeds (Entered.settled h) fun hopen _ => ?_
  rw [Proceeds, onward_bind]
  refine (parameters_proceed fuel (Fresh.settled hopen)).mono fun marks names after hafter => ?_
  cases names with
  | error broken =>
    rw [onward_pure]
    exact hafter
  | ok names =>
    refine expecting_proceeds hafter fun hbrace _ => ?_
    simp only [Proceeds, onward_bind, onward_pure]
    exact hblock hbrace

/-- Whatever form the current token opens, if it opens one. -/
theorem opening?_proceeds (fuel : Nat) {expression : Precedence → Parse κ Expression}
    {block : Parse κ Block} (hexpression : ∀ floor, ProceedsBegun course (expression floor))
    (hblock : ProceedsFresh course block) (h : Entered course marks cursor) :
    match opening? expression (parameters fuel) block (Cursor.current cursor).kind with
    | none => True
    | some opening => Proceeds course marks opening cursor := by
  cases hk : (Cursor.current cursor).kind with
  | identifier => exact identifier_proceeds h
  | number => exact number_proceeds h hk
  | trueWord | falseWord => exact boolean_proceeds h
  | bang | minus => exact unary_proceeds (hexpression _) h (by rw [hk]; decide)
  | leftParen => exact group_proceeds (hexpression _) h (by rw [hk]; decide)
  | ifWord => exact conditional_proceeds (hexpression _) hblock h
  | funWord => exact function_proceeds fuel hblock h
  | _ => trivial

/-! ## Continuations -/

theorem arguments_proceed {expression : Parse κ Expression} {more : Parse κ (List Expression)}
    (hexpression : ProceedsBegun course expression) (hmore : ProceedsSettled course more)
    (h : Fresh course marks cursor) (hne : (Cursor.current cursor).kind ≠ .eof) :
    Proceeds course marks (arguments expression more) cursor := by
  rw [Proceeds, arguments, onward_bind, onward_peek]
  split
  · rw [onward_bind, onward_advance, onward_pure]
    exact Fresh.settled (Settled.advance (Fresh.settled h))
  · simp only [onward_bind, onward_advance]
    refine (hexpression.advance (Fresh.settled h) hne).mono fun marks₁ _ after₁ hafter₁ => ?_
    refine (hmore hafter₁).mono fun marks₂ _ after₂ hafter₂ => ?_
    refine expecting_proceeds hafter₂ fun hclose _ => ?_
    rw [Proceeds, onward_pure]
    exact Fresh.settled hclose

theorem continuation_proceeds {expression : Precedence → Parse κ Expression}
    {more : Parse κ (List Expression)} (left : Expression)
    (hexpression : ∀ floor, ProceedsBegun course (expression floor))
    (hmore : ProceedsSettled course more) (h : Fresh course marks cursor)
    (hne : (Cursor.current cursor).kind ≠ .eof) (kind : Kind) :
    Proceeds course marks (continuation expression more kind left) cursor := by
  unfold continuation
  split
  · simp only [Proceeds, call, onward_bind, onward_current]
    refine (arguments_proceed (hexpression _) hmore h hne).mono fun marks result after hafter => ?_
    cases result with
    | error _ | ok _ =>
      rw [onward_pure]
      exact hafter
  · simp only [Proceeds, binary, onward_bind, onward_current, onward_advance, onward_pure]
    exact (hexpression _).advance (Fresh.settled h) hne

/-! ## Statements -/

section statements

variable {expression : Parse κ Expression} (hexpression : ProceedsBegun course expression)

include hexpression

theorem declaration_proceeds (h : Begun course marks cursor) :
    Proceeds course marks (declaration expression) cursor := by
  simp only [Proceeds, declaration, onward_bind, onward_current]
  refine expecting_proceeds (Begun.settled h) fun hname _ => ?_
  simp only [Proceeds, onward_bind, onward_name]
  refine expecting_proceeds (Fresh.settled hname) fun hassign hk => ?_
  simp only [Proceeds, onward_bind, onward_advance, onward_optionalSemicolon, onward_pure]
  refine (hexpression.advance (Fresh.settled hassign) (by rw [hk]; decide)).mono ?_
  exact fun marks _ after hafter => Settled.optionalSemicolon hafter

theorem returning_proceeds (h : Begun course marks cursor)
    (hne : (Cursor.current cursor).kind ≠ .eof) :
    Proceeds course marks (returning expression) cursor := by
  simp only [Proceeds, returning, onward_bind, onward_current, onward_peek]
  split
  · simp only [onward_bind, onward_optionalSemicolon, onward_pure]
    exact Settled.optionalSemicolon (Begun.settled h)
  · simp only [onward_bind, onward_advance, onward_optionalSemicolon, onward_pure]
    refine (hexpression.advance (Begun.settled h) hne).mono ?_
    exact fun marks _ after hafter => Settled.optionalSemicolon hafter

theorem statement_proceeds (h : Fresh course marks cursor)
    (hne : (Cursor.current cursor).kind ≠ .eof) :
    Proceeds course marks (statement expression) cursor := by
  have hlt := h.on.position_lt hne
  have hbegun : Begun course
      (marks.after (.statement (Cursor.position cursor) (Cursor.current cursor))) cursor :=
    ⟨h.on, Nat.le_refl _, h.expression_le, h.diagnostic_le⟩
  simp only [Proceeds, statement, onward_bind, onward_current, onward_position, onward_record]
  refine ⟨⟨h.statement_le, hlt⟩, ?_⟩
  split
  next => exact declaration_proceeds hexpression hbegun
  next => exact declaration_proceeds hexpression hbegun
  next =>
    simp only [onward_bind, onward_pure]
    exact returning_proceeds hexpression hbegun hne
  next =>
    simp only [onward_bind, expressionStatement, onward_current, onward_optionalSemicolon,
      onward_pure]
    refine (hexpression hbegun (Nat.le_of_lt hlt)).mono ?_
    exact fun marks _ after hafter => Settled.optionalSemicolon hafter

/-- A statement and then the others. -/
theorem body_proceeds {others : Parse κ (List Statement)} (hothers : ProceedsFresh course others)
    (h : Fresh course marks cursor) (hne : (Cursor.current cursor).kind ≠ .eof) :
    Proceeds course marks
      (do
        let first ← statement expression
        advance
        return first.toList ++ (← others)) cursor := by
  simp only [Proceeds, onward_bind, onward_advance, onward_pure]
  refine (statement_proceeds hexpression h hne).mono fun marks _ after hafter => ?_
  exact hothers (Settled.advance hafter)

end statements

theorem block_proceeds {statements : Parse κ (List Statement)}
    (hstatements : ProceedsFresh course statements) : ProceedsFresh course (block statements) := by
  intro marks cursor h
  simp only [Proceeds, block, onward_bind, onward_current, onward_advance, onward_pure]
  exact hstatements (Settled.advance (Fresh.settled h))

/-! ## The forms tied together -/

/-- The parsers of one fuel only go forward. -/
structure Progress (κ : Type) [Cursor κ] (course : Course) (fuel : Nat) : Prop where
  /-- Expressions. -/
  expression (floor : Precedence) :
    ProceedsBegun course (expression fuel floor : Parse κ Expression)
  /-- What an expression goes on with. -/
  climb (floor : Precedence) (left : Expression) :
    ProceedsSettled course (climb fuel floor left : Parse κ Expression)
  /-- Further arguments. -/
  moreArguments : ProceedsSettled course (moreArguments fuel : Parse κ (List Expression))
  /-- Statements of a block. -/
  blockStatements : ProceedsFresh course (blockStatements fuel : Parse κ (List Statement))

omit [LawfulCursor κ] in
theorem progress_zero : Progress κ course 0 where
  expression _ marks cursor h _ := reject_proceeds (Begun.entered h) rfl
  climb _ _ marks cursor h := by
    rw [Proceeds, Parse.climb, onward_pure]
    exact h
  moreArguments marks cursor h := by
    rw [Proceeds, Parse.moreArguments, onward_pure]
    exact h
  blockStatements marks cursor h := by
    rw [Proceeds, Parse.blockStatements, onward_pure]
    exact Fresh.settled h

section succ

variable {fuel : Nat} (hproceeds : Progress κ course fuel)

include hproceeds

theorem expression_proceeds (floor : Precedence) :
    ProceedsBegun course (expression (fuel + 1) floor : Parse κ Expression) := by
  intro marks cursor h hle
  have hentered : Entered course (marks.after (.expression (Cursor.position cursor))) cursor :=
    ⟨h.on, h.statement_le, Nat.le_refl _, h.diagnostic_le⟩
  have hopening := opening?_proceeds fuel hproceeds.expression
    (block_proceeds hproceeds.blockStatements) hentered
  simp only [Proceeds, expression, onward_bind, onward_position, onward_record, onward_current]
  refine ⟨⟨h.expression_le, hle⟩, ?_⟩
  -- the form is named so that the case split does not open it
  generalize opening? (expression fuel : Precedence → Parse κ Expression) (parameters fuel)
    (block (blockStatements fuel)) (Cursor.current cursor).kind = form at hopening ⊢
  cases form with
  | none => exact reject_proceeds hentered rfl
  | some opening =>
    show Onward course _ (opening >>= climb fuel floor) cursor _
    rw [onward_bind]
    exact hopening.mono fun marks left after hafter => hproceeds.climb floor left hafter

theorem climb_proceeds (floor : Precedence) (left : Expression) :
    ProceedsSettled course (climb (fuel + 1) floor left : Parse κ Expression) := by
  intro marks cursor h
  rw [Proceeds, climb, onward_bind, onward_peek, ← LawfulCursor.current_advance cursor]
  split
  next hlt =>
    have hne : (Cursor.current (Cursor.advance cursor)).kind ≠ .eof := by
      intro heof
      rw [heof] at hlt
      exact absurd hlt (Nat.not_lt_zero _)
    simp only [onward_bind, onward_advance]
    refine (continuation_proceeds left hproceeds.expression hproceeds.moreArguments
      (Settled.advance h) hne _).mono fun marks folded after hafter => ?_
    exact hproceeds.climb floor folded hafter
  next =>
    rw [onward_pure]
    exact h

theorem moreArguments_proceed :
    ProceedsSettled course (moreArguments (fuel + 1) : Parse κ (List Expression)) := by
  intro marks cursor h
  rw [Proceeds, moreArguments, onward_bind, onward_peek, ← LawfulCursor.current_advance cursor]
  split
  next hcomma =>
    simp only [onward_bind, onward_advance, onward_pure]
    refine ((hproceeds.expression _).advance (Fresh.settled (Settled.advance h))
      (by rw [hcomma]; decide)).mono fun marks _ after hafter => ?_
    exact hproceeds.moreArguments hafter
  next =>
    rw [onward_pure]
    exact h

theorem blockStatements_proceed :
    ProceedsFresh course (blockStatements (fuel + 1) : Parse κ (List Statement)) := by
  intro marks cursor h
  rw [Proceeds, blockStatements, onward_bind, onward_current]
  split
  next =>
    rw [onward_pure]
    exact Fresh.settled h
  next =>
    simp only [onward_bind, onward_pure]
    exact reject_proceeds (Begun.entered (Fresh.begun h)) rfl
  next hne => exact body_proceeds (hproceeds.expression _) hproceeds.blockStatements h hne

end succ

/-- The parsers only go forward, whatever their fuel. -/
theorem progress (fuel : Nat) : Progress κ course fuel := by
  induction fuel with
  | zero => exact progress_zero
  | succ fuel ih =>
    exact ⟨expression_proceeds ih, climb_proceeds ih, moreArguments_proceed ih,
      blockStatements_proceed ih⟩

theorem statements_proceed (fuel : Nat) :
    ProceedsFresh course (statements fuel : Parse κ (List Statement)) := by
  induction fuel with
  | zero =>
    intro marks cursor h
    rw [Proceeds, statements, onward_pure]
    exact Fresh.settled h
  | succ fuel ih =>
    intro marks cursor h
    rw [Proceeds, statements, onward_bind, onward_current]
    split
    next =>
      rw [onward_pure]
      exact Fresh.settled h
    next hne => exact body_proceeds ((progress fuel).expression _) ih h hne

end SayLang.Parse
