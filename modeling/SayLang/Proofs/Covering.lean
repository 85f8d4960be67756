import SayLang.Proofs.SourceOrder
import SayLang.Proofs.Tariff

/-!
# Tokens pay for diagnostics

Whatever the tariff, the diagnostics of a parse never cost more than the tokens of the text pay. For
each piece of the parser the tokens that it goes past pay for what it records:

    CoversExpression   from a token not gone past yet to one gone past,
    CoversRest         from a token gone past to one gone past,
    CoversBlock        from an opening brace to a token gone past,
    CoversStatements   behind an opening brace, with what that pays in reserve.

> `Parse.covering`: that, for the parsers of every fuel that is enough.
> `Tariff.parse_covered`: a whole parse.

There is one lemma for each form of the grammar, and the recursion is on the fuel. Where that runs
out a block would end without its closing brace, and nobody pays for that; so it is asked to reach
from the start of a piece to the end of input.
-/

namespace SayLang

namespace Parse

variable {κ α : Type} [Cursor κ] {tariff : Tariff} {course : Course} {start : Nat}
variable {reserve spent : Int} {cursor : κ}

/-! ## Pieces of the parser -/

/-- The tokens up to where the run ends pay for it, and the reserve is left. -/
abbrev Covers (tariff : Tariff) (course : Course) (start : Nat) (reserve : Int) (p : Parse κ α)
    (cursor : κ) (spent : Int) : Prop :=
  Costs tariff p cursor spent fun spent _ after => Paid tariff course start reserve spent after

/-- That, of a piece that goes past the current token. -/
def CoversExpression (tariff : Tariff) (course : Course) (start : Nat) (p : Parse κ α) : Prop :=
  ∀ ⦃reserve spent : Int⦄ ⦃cursor : κ⦄, Solvent tariff course start reserve spent cursor →
    Cursor.position cursor ≤ course.last → Covers tariff course start reserve p cursor spent

/-- That, of a piece that has nothing to do with the current token. -/
def CoversRest (tariff : Tariff) (course : Course) (start : Nat) (p : Parse κ α) : Prop :=
  ∀ ⦃reserve spent : Int⦄ ⦃cursor : κ⦄, Paid tariff course start reserve spent cursor →
    Covers tariff course start reserve p cursor spent

/-- That, of a piece at an opening brace. -/
def CoversBlock (tariff : Tariff) (course : Course) (start : Nat) (p : Parse κ α) : Prop :=
  ∀ ⦃reserve spent : Int⦄ ⦃cursor : κ⦄, Solvent tariff course start reserve spent cursor →
    (Cursor.current cursor).kind = .leftBrace → Covers tariff course start reserve p cursor spent

/-- That, of a piece behind an opening brace that uses up what this pays. -/
def CoversStatements (tariff : Tariff) (course : Course) (start : Nat) (p : Parse κ α) : Prop :=
  ∀ ⦃reserve spent : Int⦄ ⦃cursor : κ⦄,
    Solvent tariff course start (reserve + tariff.pay .leftBrace) spent cursor →
    Covers tariff course start reserve p cursor spent

/-- What is set aside behind a list of parts: nothing, if the form is broken off already. -/
def setAside (tariff : Tariff) : Except Expression α → Int
  | .error _ => 0
  | .ok _ => tariff.breakage

/-- A token pays for being rejected. -/
theorem reject_covers {problem : Token → Problem}
    (h : Solvent tariff course start reserve spent cursor)
    (hle : Cursor.position cursor ≤ course.last)
    (htoll : tariff.toll (problem (Cursor.current cursor)) ≤
      tariff.pay (Cursor.current cursor).kind) :
    Covers tariff course start reserve (reject problem) cursor spent := by
  rw [Covers, costs_reject]
  exact (h.pay hle).mono (Nat.le_refl _) (by omega)

theorem identifier_covers (h : Solvent tariff course start reserve spent cursor)
    (hbrace : (Cursor.current cursor).kind.isBrace = false) :
    Covers tariff course start reserve identifier cursor spent := by
  simp only [Covers, identifier, costs_bind, costs_name, costs_pure]
  exact h.pass hbrace

theorem number_covers (h : Solvent tariff course start reserve spent cursor)
    (hle : Cursor.position cursor ≤ course.last)
    (hk : (Cursor.current cursor).kind = .number) :
    Covers tariff course start reserve number cursor spent := by
  simp only [Covers, number, costs_bind, costs_current]
  split
  next =>
    rw [costs_pure]
    exact h.pass (by rw [hk]; rfl)
  next =>
    refine reject_covers h hle ?_
    rw [hk]
    exact tariff.outOfRange _

theorem boolean_covers (h : Solvent tariff course start reserve spent cursor)
    (hbrace : (Cursor.current cursor).kind.isBrace = false) :
    Covers tariff course start reserve boolean cursor spent := by
  simp only [Covers, boolean, costs_bind, costs_current, costs_pure]
  exact h.pass hbrace

variable [LawfulCursor κ]

/-- A token asked for is there, or its absence costs what was set aside for that. -/
theorem costs_expecting_of {kind : Kind} {broken : Expression → α} {next : Parse κ α}
    {post : Int → α → κ → Prop} (hkind : kind ≠ .rightBrace)
    (h : Paid tariff course start (reserve + tariff.breakage) spent cursor)
    (hbroken : ∀ {spent : Int} (e : Expression), Paid tariff course start reserve spent cursor →
      post spent (broken e) cursor)
    (hnext : Solvent tariff course (start + 1) (reserve + tariff.breakage) spent
        (Cursor.advance cursor) →
      (Cursor.current (Cursor.advance cursor)).kind = kind →
      Costs tariff next (Cursor.advance cursor) spent post) :
    Costs tariff (expecting kind broken next) cursor spent post := by
  rw [costs_expecting, ← LawfulCursor.current_advance]
  refine ⟨hnext (Paid.advance h), fun _ => hbroken _ (h.mono (Nat.le_refl _) ?_)⟩
  have hmissing := tariff.missing (Cursor.current (Cursor.advance cursor)).kind hkind
  omega

theorem expecting_covers {kind : Kind} {broken : Expression → α} {next : Parse κ α}
    (hkind : kind ≠ .rightBrace)
    (h : Paid tariff course start (reserve + tariff.breakage) spent cursor)
    (hnext : Solvent tariff course (start + 1) (reserve + tariff.breakage) spent
        (Cursor.advance cursor) →
      (Cursor.current (Cursor.advance cursor)).kind = kind →
      Covers tariff course start reserve next (Cursor.advance cursor) spent) :
    Covers tariff course start reserve (expecting kind broken next) cursor spent :=
  costs_expecting_of hkind h (fun _ hpaid => hpaid) hnext

/-- An expression behind a token other than the end of input. -/
theorem CoversExpression.advance {p : Parse κ α}
    (hp : CoversExpression tariff course (start + 1) p)
    (h : Paid tariff course start reserve spent cursor)
    (hne : (Cursor.current cursor).kind ≠ .eof) :
    Covers tariff course (start + 1) reserve p (Cursor.advance cursor) spent :=
  hp (Paid.advance h) (h.on.position_advance_le hne)

/-! ## Openings -/

theorem unary_covers {operand : Parse κ Expression}
    (hoperand : CoversExpression tariff course (start + 1) operand)
    (h : Solvent tariff course start reserve spent cursor)
    (hbrace : (Cursor.current cursor).kind.isBrace = false)
    (hne : (Cursor.current cursor).kind ≠ .eof) :
    Covers tariff course start reserve (unary operand) cursor spent := by
  simp only [Covers, unary, costs_bind, costs_current, costs_advance, costs_pure]
  exact (hoperand.advance (h.pass hbrace) hne).mono fun _ _ _ hafter => hafter.earlier

theorem group_covers {inner : Parse κ Expression}
    (hinner : CoversExpression tariff course (start + 1) inner)
    (h : Solvent tariff course start reserve spent cursor)
    (hle : Cursor.position cursor ≤ course.last)
    (hk : (Cursor.current cursor).kind = .leftParen) :
    Covers tariff course start reserve (group inner) cursor spent := by
  have hopens := h.opens hle (by rw [hk]; rfl)
  simp only [Covers, group, costs_bind, costs_advance]
  refine (hinner.advance hopens (by rw [hk]; decide)).mono fun spent e after hafter => ?_
  refine expecting_covers (by decide) hafter.earlier fun hclose hright => ?_
  rw [Covers, costs_pure]
  exact Paid.through (hclose.pass (by rw [hright]; rfl)).earlier

theorem conditional_covers {condition : Parse κ Expression} {block : Parse κ Block}
    (hcondition : CoversExpression tariff course (start + 1) condition)
    (hblock : CoversBlock tariff course (start + 1) block)
    (h : Solvent tariff course start reserve spent cursor)
    (hle : Cursor.position cursor ≤ course.last)
    (hk : (Cursor.current cursor).kind = .ifWord) :
    Covers tariff course start reserve (conditional condition block) cursor spent := by
  have hopens := h.opens hle (by rw [hk]; rfl)
  simp only [Covers, conditional, costs_bind, costs_current]
  refine expecting_covers (by decide) hopens fun hopen hleft => ?_
  simp only [Covers, costs_bind, costs_advance]
  have hparen := (hopen.pass (by rw [hleft]; rfl)).earlier
  refine (hcondition.advance hparen (by rw [hleft]; decide)).mono fun spent₁ e after₁ hafter₁ => ?_
  refine expecting_covers (by decide) hafter₁.earlier fun hclose hright => ?_
  refine expecting_covers (by decide) (hclose.pass (by rw [hright]; rfl)).earlier
    fun hbrace hbraceKind => ?_
  rw [Covers, costs_bind]
  refine (hblock hbrace hbraceKind).mono fun spent₂ consequence after₂ hafter₂ => ?_
  rw [costs_bind, costs_peek, ← LawfulCursor.current_advance after₂]
  split
  next helse =>
    rw [costs_bind, costs_advance]
    have hword := ((Paid.advance hafter₂.earlier).pass (by rw [helse]; rfl)).earlier
    refine expecting_covers (by decide) hword fun hbrace' hbraceKind' => ?_
    simp only [Covers, costs_bind, costs_pure]
    exact (hblock hbrace' hbraceKind').mono fun _ _ _ hafter => Paid.through hafter.earlier
  next =>
    rw [costs_pure]
    exact Paid.through hafter₂.earlier

theorem moreNames_cover (fuel : Nat) :
    ∀ {spent : Int} {cursor : κ},
      Paid tariff course start (reserve + tariff.breakage) spent cursor →
      Costs tariff (moreNames fuel) cursor spent fun spent names after =>
        Paid tariff course start (reserve + setAside tariff names) spent after := by
  induction fuel with
  | zero =>
    intro spent cursor h
    rw [moreNames, costs_pure]
    exact h
  | succ fuel ih =>
    intro spent cursor h
    rw [moreNames, costs_bind, costs_peek, ← LawfulCursor.current_advance cursor]
    split
    next hcomma =>
      rw [costs_bind, costs_advance]
      have hcommaPaid := ((Paid.advance h).pass (by rw [hcomma]; rfl)).earlier
      refine costs_expecting_of (by decide) hcommaPaid (fun e hpaid => ?_) fun hname hk => ?_
      · rw [setAside, Int.add_zero]
        exact hpaid
      · simp only [costs_bind, costs_name, costs_pure]
        refine (ih (hname.pass (by rw [hk]; rfl)).earlier).mono fun spent names after hafter => ?_
        cases names with
        | error _ | ok _ => exact hafter
    next =>
      rw [costs_pure]
      exact h

theorem parameters_cover (fuel : Nat)
    (h : Paid tariff course start (reserve + tariff.breakage) spent cursor) :
    Costs tariff (parameters fuel) cursor spent fun spent names after =>
      Paid tariff course start (reserve + setAside tariff names) spent after := by
  have hbroken {spent : Int} {cursor : κ} (e : Expression)
      (hpaid : Paid tariff course start reserve spent cursor) :
      Paid tariff course start
        (reserve + setAside tariff (.error e : Except Expression (List Name))) spent cursor := by
    rw [setAside, Int.add_zero]
    exact hpaid
  rw [parameters, costs_bind, costs_peek, ← LawfulCursor.current_advance cursor]
  split
  next hright =>
    rw [costs_bind, costs_advance, costs_pure]
    exact ((Paid.advance h).pass (by rw [hright]; rfl)).earlier
  next =>
    refine costs_expecting_of (by decide) h hbroken fun hname hk => ?_
    simp only [costs_bind, costs_name]
    refine (moreNames_cover fuel (hname.pass (by rw [hk]; rfl)).earlier).mono
      fun spent names after hafter => ?_
    cases names with
    | error broken =>
      rw [costs_pure]
      exact hafter
    | ok names =>
      refine costs_expecting_of (by decide) hafter hbroken fun hclose hright => ?_
      rw [costs_pure]
      exact (hclose.pass (by rw [hright]; rfl)).earlier

theorem function_covers (fuel : Nat) {block : Parse κ Block}
    (hblock : CoversBlock tariff course (start + 1) block)
    (h : Solvent tariff course start reserve spent cursor)
    (hle : Cursor.position cursor ≤ course.last)
    (hk : (Cursor.current cursor).kind = .funWord) :
    Covers tariff course start reserve (function (parameters fuel) block) cursor spent := by
  have hopens := h.opens hle (by rw [hk]; rfl)
  simp only [Covers, function, costs_bind, costs_current]
  refine expecting_covers (by decide) hopens fun hopen hleft => ?_
  rw [Covers, costs_bind]
  refine (parameters_cover fuel (hopen.pass (by rw [hleft]; rfl)).earlier).mono
    fun spent names after hafter => ?_
  cases names with
  | error broken =>
    rw [setAside, Int.add_zero] at hafter
    rw [costs_pure]
    exact hafter
  | ok names =>
    refine expecting_covers (by decide) hafter fun hbrace hbraceKind => ?_
    simp only [Covers, costs_bind, costs_pure]
    exact (hblock hbrace hbraceKind).mono fun _ _ _ hafter => Paid.through hafter.earlier

/-- Whatever form the current token opens, if it opens one. -/
theorem opening?_covers (fuel : Nat) {expression : Precedence → Parse κ Expression}
    {block : Parse κ Block}
    (hexpression : ∀ floor, CoversExpression tariff course (start + 1) (expression floor))
    (hblock : CoversBlock tariff course (start + 1) block)
    (h : Solvent tariff course start reserve spent cursor)
    (hle : Cursor.position cursor ≤ course.last) :
    match opening? expression (parameters fuel) block (Cursor.current cursor).kind with
    | none => True
    | some opening => Covers tariff course start reserve opening cursor spent := by
  cases hk : (Cursor.current cursor).kind with
  | identifier => exact identifier_covers h (by rw [hk]; rfl)
  | number => exact number_covers h hle hk
  | trueWord | falseWord => exact boolean_covers h (by rw [hk]; rfl)
  | bang | minus => exact unary_covers (hexpression _) h (by rw [hk]; rfl) (by rw [hk]; decide)
  | leftParen => exact group_covers (hexpression _) h hle hk
  | ifWord => exact conditional_covers (hexpression _) hblock h hle hk
  | funWord => exact function_covers fuel hblock h hle hk
  | _ => trivial

/-! ## Continuations -/

theorem arguments_cover {expression : Parse κ Expression} {more : Parse κ (List Expression)}
    (hexpression : CoversExpression tariff course (start + 1) expression)
    (hmore : CoversRest tariff course (start + 1) more)
    (h : Paid tariff course start (reserve + tariff.breakage) spent cursor)
    (hne : (Cursor.current cursor).kind ≠ .eof) :
    Covers tariff course start reserve (arguments expression more) cursor spent := by
  rw [Covers, arguments, costs_bind, costs_peek, ← LawfulCursor.current_advance cursor]
  split
  next hright =>
    rw [costs_bind, costs_advance, costs_pure]
    exact Paid.through ((Paid.advance h).pass (by rw [hright]; rfl)).earlier
  next =>
    simp only [costs_bind, costs_advance]
    refine (hexpression.advance h hne).mono fun spent₁ _ after₁ hafter₁ => ?_
    refine (hmore hafter₁).mono fun spent₂ _ after₂ hafter₂ => ?_
    refine expecting_covers (by decide) hafter₂.earlier fun hclose hright => ?_
    rw [Covers, costs_pure]
    exact Paid.through (hclose.pass (by rw [hright]; rfl)).earlier

theorem continuation_covers {expression : Precedence → Parse κ Expression}
    {more : Parse κ (List Expression)} (left : Expression)
    (hexpression : ∀ floor, CoversExpression tariff course (start + 1) (expression floor))
    (hmore : CoversRest tariff course (start + 1) more)
    (h : Solvent tariff course start reserve spent cursor)
    (hle : Cursor.position cursor ≤ course.last)
    (hbrace : (Cursor.current cursor).kind.isBrace = false)
    (hne : (Cursor.current cursor).kind ≠ .eof) (kind : Kind) :
    Covers tariff course start reserve (continuation expression more kind left) cursor spent := by
  unfold continuation
  split
  · simp only [Covers, call, costs_bind, costs_current]
    refine (arguments_cover (hexpression _) hmore (h.opens hle hbrace) hne).mono
      fun spent result after hafter => ?_
    cases result with
    | error _ | ok _ =>
      rw [costs_pure]
      exact hafter
  · simp only [Covers, binary, costs_bind, costs_current, costs_advance, costs_pure]
    exact ((hexpression _).advance (h.pass hbrace) hne).mono fun _ _ _ hafter => hafter.earlier

/-! ## Statements -/

section statements

variable {expression : Parse κ Expression}
variable (hexpression : CoversExpression tariff course start expression)

include hexpression

/-- An expression further on in a statement. -/
theorem expression_behind (h : Paid tariff course start reserve spent cursor)
    (hne : (Cursor.current cursor).kind ≠ .eof) :
    Covers tariff course start reserve expression (Cursor.advance cursor) spent :=
  hexpression (Paid.advance h).earlier (h.on.position_advance_le hne)

theorem declaration_covers (h : Solvent tariff course start reserve spent cursor)
    (hle : Cursor.position cursor ≤ course.last)
    (hbrace : (Cursor.current cursor).kind.isBrace = false) :
    Covers tariff course start reserve (declaration expression) cursor spent := by
  simp only [Covers, declaration, costs_bind, costs_current]
  refine expecting_covers (by decide) (h.opens hle hbrace) fun hname hk => ?_
  simp only [Covers, costs_bind, costs_name]
  refine expecting_covers (by decide) (hname.pass (by rw [hk]; rfl)).earlier
    fun hassign hk' => ?_
  simp only [Covers, costs_bind, costs_advance, costs_optionalSemicolon, costs_pure]
  have hsign := (hassign.pass (by rw [hk']; rfl)).earlier
  refine (expression_behind hexpression hsign (by rw [hk']; decide)).mono ?_
  exact fun spent _ after hafter => Paid.optionalSemicolon (Paid.through hafter)

theorem returning_covers (h : Solvent tariff course start reserve spent cursor)
    (hk : (Cursor.current cursor).kind = .returnWord) :
    Covers tariff course start reserve (returning expression) cursor spent := by
  have hword := h.pass (by rw [hk]; rfl)
  simp only [Covers, returning, costs_bind, costs_current, costs_peek]
  split
  · simp only [costs_bind, costs_optionalSemicolon, costs_pure]
    exact Paid.optionalSemicolon hword
  · simp only [costs_bind, costs_advance, costs_optionalSemicolon, costs_pure]
    refine (expression_behind hexpression hword (by rw [hk]; decide)).mono ?_
    exact fun spent _ after hafter => Paid.optionalSemicolon hafter

theorem statement_covers (h : Solvent tariff course start reserve spent cursor)
    (hle : Cursor.position cursor ≤ course.last) :
    Covers tariff course start reserve (statement expression) cursor spent := by
  simp only [Covers, statement, costs_bind, costs_current, costs_position, costs_record_statement]
  split
  next hk => exact declaration_covers hexpression h hle (by rw [hk]; rfl)
  next hk => exact declaration_covers hexpression h hle (by rw [hk]; rfl)
  next hk =>
    simp only [costs_bind, costs_pure]
    exact returning_covers hexpression h hk
  next =>
    simp only [costs_bind, expressionStatement, costs_current, costs_optionalSemicolon, costs_pure]
    exact (hexpression h hle).mono fun spent _ after hafter => Paid.optionalSemicolon hafter

/-- A statement and then the others. -/
theorem body_covers {others : Parse κ (List Statement)} {ends : Int → κ → Prop}
    (hothers : ∀ {spent : Int} {cursor : κ},
      Solvent tariff course (start + 1) reserve spent cursor →
      Costs tariff others cursor spent fun spent _ after => ends spent after)
    (h : Solvent tariff course start reserve spent cursor)
    (hle : Cursor.position cursor ≤ course.last) :
    Costs tariff
      (do
        let first ← statement expression
        advance
        return first.toList ++ (← others)) cursor spent fun spent _ after => ends spent after := by
  simp only [costs_bind, costs_advance, costs_pure]
  refine (statement_covers hexpression h hle).mono fun spent _ after hafter => ?_
  exact hothers (Paid.advance hafter)

end statements

theorem block_covers {statements : Parse κ (List Statement)}
    (hstatements : start < course.last → CoversStatements tariff course (start + 1) statements) :
    CoversBlock tariff course start (block statements) := by
  intro reserve spent cursor h hk
  have hne : (Cursor.current cursor).kind ≠ .eof := by
    rw [hk]
    decide
  have hlt := h.on.position_lt hne
  have hbrace := h.pay (Nat.le_of_lt hlt)
  rw [hk] at hbrace
  simp only [Covers, block, costs_bind, costs_current, costs_advance, costs_pure]
  have hcovers := hstatements (Nat.lt_of_le_of_lt h.start_le hlt)
  exact (hcovers (Paid.advance hbrace)).mono fun _ _ _ hafter => hafter.earlier

/-! ## The forms tied together -/

/-- The parsers of one fuel cover what they record, from every start from which the fuel reaches to
the end of input. -/
structure Covering (κ : Type) [Cursor κ] (tariff : Tariff) (course : Course) (fuel : Nat) :
    Prop where
  /-- Expressions. -/
  expression {start : Nat} (floor : Precedence) : course.last + 1 ≤ start + fuel →
    CoversExpression tariff course start (expression fuel floor : Parse κ Expression)
  /-- What an expression goes on with. -/
  climb {start : Nat} (floor : Precedence) (left : Expression) : course.last ≤ start + fuel →
    CoversRest tariff course start (climb fuel floor left : Parse κ Expression)
  /-- Further arguments. -/
  moreArguments {start : Nat} : course.last ≤ start + fuel →
    CoversRest tariff course start (moreArguments fuel : Parse κ (List Expression))
  /-- Statements of a block. -/
  blockStatements {start : Nat} : 0 < fuel → course.last + 2 ≤ start + fuel →
    CoversStatements tariff course start (blockStatements fuel : Parse κ (List Statement))

omit [LawfulCursor κ] in
theorem covering_zero : Covering κ tariff course 0 where
  expression _ _ _ _ _ h hle := reject_covers h hle (tariff.refused _)
  climb _ _ _ _ _ _ h := by
    rw [Covers, Parse.climb, costs_pure]
    exact h
  moreArguments _ _ _ _ h := by
    rw [Covers, Parse.moreArguments, costs_pure]
    exact h
  blockStatements hfuel := absurd hfuel (Nat.lt_irrefl 0)

section succ

variable {fuel : Nat} (hcovers : Covering κ tariff course fuel)

include hcovers

theorem expression_covers (floor : Precedence) (hfuel : course.last + 1 ≤ start + (fuel + 1)) :
    CoversExpression tariff course start (expression (fuel + 1) floor : Parse κ Expression) := by
  intro reserve spent cursor h hle
  have hblock : CoversBlock tariff course (start + 1)
      (block (blockStatements fuel) : Parse κ Block) :=
    block_covers fun hlt => hcovers.blockStatements (by omega) (by omega)
  have hopening := opening?_covers fuel
    (fun floor => hcovers.expression floor (by omega)) hblock h hle
  simp only [Covers, expression, costs_bind, costs_position, costs_record_expression,
    costs_current]
  -- the form is named so that the case split does not open it
  generalize opening? (expression fuel : Precedence → Parse κ Expression) (parameters fuel)
    (block (blockStatements fuel)) (Cursor.current cursor).kind = form at hopening ⊢
  cases form with
  | none => exact reject_covers h hle (tariff.refused _)
  | some opening =>
    show Costs tariff (opening >>= climb fuel floor) cursor spent _
    rw [costs_bind]
    exact hopening.mono fun spent left after hafter =>
      hcovers.climb floor left (by omega) hafter

theorem climb_covers (floor : Precedence) (left : Expression)
    (hfuel : course.last ≤ start + (fuel + 1)) :
    CoversRest tariff course start (climb (fuel + 1) floor left : Parse κ Expression) := by
  intro reserve spent cursor h
  rw [Covers, climb, costs_bind, costs_peek, ← LawfulCursor.current_advance cursor]
  split
  next hlt =>
    have hoperator {kind : Kind} (hlowest : kind.precedence = .lowest) :
        (Cursor.current (Cursor.advance cursor)).kind ≠ kind := by
      intro hk
      rw [hk, hlowest] at hlt
      exact absurd hlt (Nat.not_lt_zero _)
    have hbrace : (Cursor.current (Cursor.advance cursor)).kind.isBrace = false := by
      cases hk : (Cursor.current (Cursor.advance cursor)).kind with
      | leftBrace | rightBrace => exact absurd hk (hoperator rfl)
      | _ => rfl
    have hne : (Cursor.current (Cursor.advance cursor)).kind ≠ .eof := hoperator rfl
    have hnext := Paid.advance h
    simp only [costs_bind, costs_advance]
    refine (continuation_covers left (fun floor => hcovers.expression floor (by omega))
      (hcovers.moreArguments (by omega)) hnext (Nat.le_of_lt (hnext.on.position_lt hne)) hbrace hne
      _).mono fun spent folded after hafter => ?_
    exact (hcovers.climb floor folded (by omega) hafter).mono fun _ _ _ hafter => hafter.earlier
  next =>
    rw [costs_pure]
    exact h

theorem moreArguments_cover (hfuel : course.last ≤ start + (fuel + 1)) :
    CoversRest tariff course start (moreArguments (fuel + 1) : Parse κ (List Expression)) := by
  intro reserve spent cursor h
  rw [Covers, moreArguments, costs_bind, costs_peek, ← LawfulCursor.current_advance cursor]
  split
  next hcomma =>
    have hpaid := (Paid.advance h).pass (by rw [hcomma]; rfl)
    simp only [costs_bind, costs_advance, costs_pure]
    refine ((hcovers.expression _ (by omega)).advance hpaid (by rw [hcomma]; decide)).mono
      fun spent _ after hafter => ?_
    exact (hcovers.moreArguments (by omega) hafter).mono fun _ _ _ hafter =>
      hafter.earlier.earlier
  next =>
    rw [costs_pure]
    exact h

theorem blockStatements_cover (hfuel : course.last + 2 ≤ start + (fuel + 1)) :
    CoversStatements tariff course start
      (blockStatements (fuel + 1) : Parse κ (List Statement)) := by
  intro reserve spent cursor h
  rw [Covers, blockStatements, costs_bind, costs_current]
  split
  next hk =>
    -- the two braces pay for each other
    have hclosed := tariff.closed
    have hne : (Cursor.current cursor).kind ≠ .eof := by
      rw [hk]
      decide
    have hpaid := h.pay (Nat.le_of_lt (h.on.position_lt hne))
    rw [hk] at hpaid
    rw [costs_pure]
    exact hpaid.mono (Nat.le_refl _) (by omega)
  next hk =>
    have hunclosed := tariff.unclosed
    simp only [costs_bind, costs_reject, costs_pure, hk]
    exact (h.pass (by rw [hk]; rfl)).mono (Nat.le_refl _) (by omega)
  next hne =>
    have hlt := h.on.position_lt hne
    have hstart := h.start_le
    refine body_covers (hcovers.expression _ (by omega)) (fun hothers => ?_) h (Nat.le_of_lt hlt)
    exact (hcovers.blockStatements (by omega) (by omega) hothers).mono fun _ _ _ hafter =>
      hafter.earlier

end succ

/-- The parsers cover what they record, if their fuel is enough. -/
theorem covering (fuel : Nat) : Covering κ tariff course fuel := by
  induction fuel with
  | zero => exact covering_zero
  | succ fuel ih =>
    exact ⟨fun floor hfuel => expression_covers ih floor hfuel,
      fun floor left hfuel => climb_covers ih floor left hfuel,
      fun hfuel => moreArguments_cover ih hfuel,
      fun _ hfuel => blockStatements_cover ih hfuel⟩

/-- All statements up to the end of input, which may pay as well. -/
theorem statements_cover (fuel : Nat) :
    ∀ {start : Nat} {spent : Int} {cursor : κ}, course.last + 2 ≤ start + fuel →
      Solvent tariff course start reserve spent cursor →
      Costs tariff (statements fuel) cursor spent fun spent _ _ =>
        spent + reserve ≤ tariff.worth course (course.last + 1) := by
  induction fuel with
  | zero =>
    intro start spent cursor hfuel h
    have hstart := h.start_le
    rw [statements, costs_pure]
    exact h.le.trans (tariff.worth_le_of_last_le course (by omega))
  | succ fuel ih =>
    intro start spent cursor hfuel h
    rw [statements, costs_bind, costs_current, h.on.current_eq]
    split
    next heof =>
      have hle := (course.kind_eq_iff _).mp heof
      rw [costs_pure]
      exact h.le.trans (tariff.worth_le_of_last_le course hle)
    next hne =>
      have hlt := (course.kind_ne_iff _).mp hne
      exact body_covers ((covering fuel).expression _ (by omega))
        (fun hothers => ih (by omega) hothers) h (Nat.le_of_lt hlt)

end Parse

/-! ## A whole parse -/

namespace Tariff

variable (tariff : Tariff) (source : String)

/-- What the course of a text is worth is paid by the tokens of the text. -/
theorem worth_ofSource {count : Nat} (h : count ≤ (Course.ofSource source).last + 1) :
    tariff.worth (Course.ofSource source) count =
      (((tokenize source).take count).map fun token => tariff.pay token.kind).sum := by
  induction count with
  | zero => rfl
  | succ count ih =>
    have hle : count ≤ (Course.ofSource source).last := Nat.le_of_succ_le_succ h
    rw [worth_succ_of_le _ _ hle, ih (Nat.le_of_succ_le h), List.take_add_one,
      Course.getElem?_tokenize hle, List.map_append, List.sum_append]
    simp

/-- The diagnostics of a parse cost at most what the tokens of the text pay, the end of input
included. -/
theorem parse_covered :
    ((parse source).diagnostics.map fun found => tariff.toll found.problem).sum ≤
      ((tokenize source).map fun token => tariff.pay token.kind).sum := by
  have hahead := (Window.ofSource_starts source).length_le
  have hpos := List.length_pos_iff.mpr (tokenize_upToEof source).ne_nil
  have hlast : (Course.ofSource source).last = (tokenize source).length - 1 := rfl
  have hstart : Parse.Solvent tariff (Course.ofSource source) 0 0 0 (Window.ofSource source) :=
    ⟨Window.ofSource_on source, Nat.zero_le _, Int.le_refl 0⟩
  have hcovers := Parse.statements_cover (Cursor.ahead (Window.ofSource source) + 3)
    (show (Course.ofSource source).last + 2 ≤ 0 + (Cursor.ahead (Window.ofSource source) + 3) by
      omega) hstart
  rw [Parse.Costs, Int.zero_add, Int.add_zero, worth_ofSource _ _ (Nat.le_refl _), hlast,
    Nat.sub_add_cancel hpos, List.take_length] at hcovers
  rw [parse, diagnostics_parseFrom]
  exact hcovers

end Tariff

end SayLang
