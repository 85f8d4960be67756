import SayLang.Proofs.Standing

/-!
# The parser follows the recognizer

As long as the parser finds nothing wrong it is where the recognizer is after the same tokens, and
what it has built is the reading of them. The first token it finds wrong is the first one that the
recognizer refuses.

> `parseFrom_follows`: both, for the parser of a whole program.

There is one lemma for each form of the grammar. It takes for granted what the parsers of the parts
do further on, and the recursion on the fuel puts the forms together.
-/

namespace SayLang

open Recognizer

variable {κ : Type} [Cursor κ] [LawfulCursor κ]

namespace Parse

variable {tokens : List Token} {cursor : κ} {goals : List Goal}

/-! ## Openings -/

/-- What an opening leaves behind. -/
abbrev Opened (tokens : List Token) (cursor : κ) (goals : List Goal) : Expression → κ → Prop :=
  Leaves tokens (.continuations :: goals) (Cursor.position cursor)
    (ReadsOpening (Cursor.remaining tokens cursor))

/-- A token that starts an expression is read by the parser and by the recognizer. -/
theorem opening_advance (h : Stands tokens cursor (.expression :: goals)) {behind : List Goal}
    (hopening : Recognizer.opening? (Cursor.current cursor) = some behind) :
    Stands tokens (Cursor.advance cursor) (behind ++ goals) := by
  have hne := (statement?_of_opening? hopening).2.1
  refine h.advance ?_ hne
  rw [step_expression, hopening]
  rfl

/-- A token that is an expression by itself leaves behind what it should. -/
theorem opened_of_token {e : Expression} (h : Stands tokens cursor (.expression :: goals))
    (hopening : Recognizer.opening? (Cursor.current cursor) = some [.continuations])
    (hreads : ∀ rest, ReadsOpening (Cursor.current cursor :: rest) e rest) :
    Opened tokens cursor goals e cursor := by
  refine ⟨opening_advance h hopening, ?_, Nat.le_refl _⟩
  rw [h.remaining_eq]
  exact hreads _

theorem identifier_follows (h : Stands tokens cursor (.expression :: goals))
    (hk : (Cursor.current cursor).kind = .identifier) :
    Ensures (RefusedAt tokens) identifier cursor (Opened tokens cursor goals) := by
  simp only [identifier, ensures_bind, ensures_name, ensures_pure]
  exact opened_of_token h (opening?_identifier hk) fun _ => .identifier hk

theorem number_follows (h : Stands tokens cursor (.expression :: goals))
    (hk : (Cursor.current cursor).kind = .number) :
    Ensures (RefusedAt tokens) number cursor (Opened tokens cursor goals) := by
  have hopening := opening?_number hk
  simp only [number, ensures_bind, ensures_current]
  cases hvalue : Integer.ofDigits? (Cursor.current cursor).literal with
  | none =>
    -- digits out of range: both refuse the number itself
    rw [hvalue] at hopening
    rw [ensures_reject]
    refine h.refused ?_ ⟨rfl, hk, rfl⟩
    rw [step_expression, hopening]
    rfl
  | some value =>
    rw [hvalue] at hopening
    rw [ensures_pure]
    exact opened_of_token h hopening fun _ => .number hk hvalue

theorem boolean_follows (h : Stands tokens cursor (.expression :: goals))
    (hk : (Cursor.current cursor).kind = .trueWord ∨ (Cursor.current cursor).kind = .falseWord) :
    Ensures (RefusedAt tokens) boolean cursor (Opened tokens cursor goals) := by
  simp only [boolean, ensures_bind, ensures_current, ensures_pure]
  exact opened_of_token h (opening?_boolean hk) fun _ => .boolean hk

theorem unary_follows {operand : Parse κ Expression}
    (hoperand : ParsesExpression tokens (Cursor.position cursor + 1) .unary operand)
    (h : Stands tokens cursor (.expression :: goals))
    (hk : (Cursor.current cursor).kind = .bang ∨ (Cursor.current cursor).kind = .minus) :
    Ensures (RefusedAt tokens) (unary operand) cursor (Opened tokens cursor goals) := by
  have hadvance : Stands tokens (Cursor.advance cursor) (.expression :: goals) :=
    opening_advance h (opening?_unary hk)
  have hposition := LawfulCursor.position_advance cursor
  simp only [unary, ensures_bind, ensures_current, ensures_advance, ensures_pure]
  refine (hoperand _ _ (Nat.le_of_eq hposition.symm) hadvance).mono ?_
  intro e after hleaves
  obtain ⟨hstands, hreads, hle⟩ := hleaves
  refine ⟨hstands, ?_, by omega⟩
  rw [h.remaining_eq]
  exact .unary hk hreads

theorem group_follows {inner : Parse κ Expression}
    (hinner : ParsesExpression tokens (Cursor.position cursor + 1) .lowest inner)
    (h : Stands tokens cursor (.expression :: goals))
    (hk : (Cursor.current cursor).kind = .leftParen) :
    Ensures (RefusedAt tokens) (group inner) cursor (Opened tokens cursor goals) := by
  have hadvance : Stands tokens (Cursor.advance cursor)
      (.expression :: .token .rightParen :: .continuations :: goals) :=
    opening_advance h (opening?_leftParen hk)
  have hposition := LawfulCursor.position_advance cursor
  simp only [group, ensures_bind, ensures_advance]
  refine (hinner _ _ (Nat.le_of_eq hposition.symm) hadvance).mono ?_
  intro e after hleaves
  refine hleaves.ended.expecting_token (by decide) fun hright hstands => ?_
  have hreads := hleaves.reads
  have hle := hleaves.le
  have hposition' := LawfulCursor.position_advance after
  rw [hleaves.stands.remaining_eq] at hreads
  rw [ensures_pure]
  refine ⟨hstands, ?_, by omega⟩
  rw [h.remaining_eq]
  exact .group hk hreads hright

theorem conditional_follows {condition : Parse κ Expression} {block : Parse κ Block}
    (hcondition : ParsesExpression tokens (Cursor.position cursor + 1) .lowest condition)
    (hblock : ParsesBlock tokens (Cursor.position cursor + 1) block)
    (h : Stands tokens cursor (.expression :: goals))
    (hk : (Cursor.current cursor).kind = .ifWord) :
    Ensures (RefusedAt tokens) (conditional condition block) cursor
      (Opened tokens cursor goals) := by
  have hword : Stands tokens (Cursor.advance cursor)
      (.token .leftParen :: .expression :: .token .rightParen :: .token .leftBrace :: .block ::
        .alternative :: .continuations :: goals) :=
    opening_advance h (opening?_ifWord hk)
  have hposition₁ := LawfulCursor.position_advance cursor
  have hposition₂ := LawfulCursor.position_advance (Cursor.advance cursor)
  simp only [conditional, ensures_bind, ensures_current]
  refine hword.expecting_token (by decide) fun hleft hstands₁ => ?_
  simp only [ensures_bind, ensures_advance]
  refine (hcondition _ _ (by omega) hstands₁).mono ?_
  intro e after₁ hleaves₁
  have hle₁ := hleaves₁.le
  have hreads₁ := hleaves₁.reads
  rw [hleaves₁.stands.remaining_eq] at hreads₁
  have hposition₃ := LawfulCursor.position_advance after₁
  have hposition₄ := LawfulCursor.position_advance (Cursor.advance after₁)
  refine hleaves₁.ended.expecting_token (by decide) fun hright hstands₂ => ?_
  -- the brace is asked for here and read as a part of the block, so both facts are kept
  refine hstands₂.expecting_token (by decide) fun hbrace _ => ?_
  rw [ensures_bind]
  refine (hblock _ _ (by omega) hstands₂ hbrace).mono ?_
  intro consequence after₂ hleaves₂
  have hle₂ := hleaves₂.le
  have hreads₂ := hleaves₂.reads
  rw [hleaves₂.stands.remaining_eq] at hreads₂
  have hposition₅ := LawfulCursor.position_advance after₂
  have hposition₆ := LawfulCursor.position_advance (Cursor.advance after₂)
  rw [ensures_bind, ensures_peek, ← LawfulCursor.current_advance after₂]
  split
  next helse =>
    have hstep' : step (.alternative :: .continuations :: goals)
        (Cursor.current (Cursor.advance after₂)) =
          some (.token .leftBrace :: .block :: .continuations :: goals) := by
      simp [step, Goal.react, helse]
    have hstands₃ := hleaves₂.stands.advance hstep' (by simp [helse])
    rw [ensures_bind, ensures_advance]
    refine hstands₃.expecting_token (by decide) fun hbrace' _ => ?_
    rw [ensures_bind]
    refine (hblock _ _ (by omega) hstands₃ hbrace').mono ?_
    intro alternative after₃ halternative
    obtain ⟨hstands₄, hreads₃, hle₃⟩ := halternative
    rw [ensures_pure]
    refine ⟨hstands₄, ?_, by omega⟩
    rw [h.remaining_eq, hword.remaining_eq]
    exact .ifElse hk hleft hreads₁ hright hreads₂ helse hreads₃
  next helse =>
    rw [ensures_pure]
    refine ⟨hleaves₂.stands.pass (if_neg helse), ?_, by omega⟩
    rw [h.remaining_eq, hword.remaining_eq, hleaves₂.stands.remaining_eq]
    exact .ifThen hk hleft hreads₁ hright hreads₂ helse

/-! ## Parameters -/

/-- Where the loop over further parameters or arguments has stopped no comma is ahead, so only the
closing parenthesis is left to ask for. -/
theorem expecting_close {α : Type} {goal : Goal} {broken : Expression → α} {next : Parse κ α}
    {post : α → κ → Prop} (hgoal : goal = .moreParameters ∨ goal = .moreArguments)
    (h : Stands tokens (Cursor.advance cursor) (goal :: goals))
    (hstops : ∃ ahead more, Cursor.remaining tokens (Cursor.advance cursor) = ahead :: more ∧
      ahead.kind ≠ .comma)
    (hnext : (Cursor.current (Cursor.advance cursor)).kind = .rightParen →
      Stands tokens (Cursor.advance (Cursor.advance cursor)) goals →
      Ensures (RefusedAt tokens) next (Cursor.advance cursor) post) :
    Ensures (RefusedAt tokens) (expecting .rightParen broken next) cursor post := by
  obtain ⟨ahead, more, hrest, hcomma⟩ := hstops
  rw [h.remaining_eq] at hrest
  cases hrest
  refine h.expecting goals (by decide) ?_ ?_ hnext
  · intro hright
    rcases hgoal with rfl | rfl <;> simp [step, Goal.react, hright]
  · intro hright
    rcases hgoal with rfl | rfl <;> simp [step, Goal.react, hright, hcomma]

theorem moreNames_follows (fuel : Nat) :
    ∀ {cursor : κ}, tokens.length ≤ Cursor.position cursor + fuel →
      Stands tokens (Cursor.advance cursor) (.moreParameters :: goals) →
      Ensures (RefusedAt tokens) (moreNames fuel) cursor
        (Leaves tokens (.moreParameters :: goals) (Cursor.position cursor) fun value rest =>
          ∃ names, value = .ok names ∧
            ReadsMoreNames (Cursor.remaining tokens (Cursor.advance cursor)) names rest) := by
  -- each turn of the loop reads two tokens, so fuel for the tokens ahead is fuel enough
  induction fuel with
  | zero =>
    intro cursor hfuel h
    have hlt := h.lt
    have hposition := LawfulCursor.position_advance cursor
    omega
  | succ fuel ih =>
    intro cursor hfuel h
    have hposition₁ := LawfulCursor.position_advance cursor
    have hposition₂ := LawfulCursor.position_advance (Cursor.advance cursor)
    rw [moreNames, ensures_bind, ensures_peek, ← LawfulCursor.current_advance cursor]
    split
    next hcomma =>
      have hstep : step (.moreParameters :: goals) (Cursor.current (Cursor.advance cursor)) =
          some (.token .identifier :: .moreParameters :: goals) := by
        simp [step, Goal.react, hcomma]
      have hstands₁ := h.advance hstep (by simp [hcomma])
      rw [ensures_bind, ensures_advance]
      refine hstands₁.expecting_token (by decide) fun hname hstands₂ => ?_
      simp only [ensures_bind, ensures_name]
      refine (ih (by omega) hstands₂).mono ?_
      intro _ after hothers
      obtain ⟨hstands, ⟨names, rfl, hreads⟩, hle⟩ := hothers
      rw [ensures_pure]
      refine ⟨hstands, ⟨_, rfl, ?_⟩, by omega⟩
      rw [h.remaining_eq, hstands₁.remaining_eq]
      exact .cons hcomma hname hreads
    next hcomma =>
      rw [ensures_pure]
      refine ⟨h, ⟨[], rfl, ?_⟩, Nat.le_refl _⟩
      rw [h.remaining_eq]
      exact .stop hcomma

theorem parameters_follows {fuel : Nat} (hfuel : tokens.length ≤ Cursor.position cursor + fuel)
    (h : Stands tokens (Cursor.advance cursor) (.parameters :: goals)) :
    Ensures (RefusedAt tokens) (parameters fuel) cursor
      (Leaves tokens goals (Cursor.position cursor) fun value rest =>
        ∃ names, value = .ok names ∧
          ReadsNames (Cursor.remaining tokens (Cursor.advance cursor)) names rest) := by
  have hposition := LawfulCursor.position_advance cursor
  rw [parameters, ensures_bind, ensures_peek, ← LawfulCursor.current_advance cursor]
  split
  next hright =>
    have hstep : step (.parameters :: goals) (Cursor.current (Cursor.advance cursor)) =
        some goals := by
      simp [step, Goal.react, hright]
    rw [ensures_bind, ensures_advance, ensures_pure]
    refine ⟨h.advance hstep (by simp [hright]), ⟨[], rfl, ?_⟩, by omega⟩
    rw [h.remaining_eq]
    exact .none hright
  next hright =>
    refine h.expecting (.moreParameters :: goals) (by decide) ?_ ?_ ?_
    · intro hname
      simp [step, Goal.react, hname]
    · intro hname
      simp [step, Goal.react, hright, hname]
    · intro hname hstands₁
      simp only [ensures_bind, ensures_name]
      refine (moreNames_follows fuel (by omega) hstands₁).mono ?_
      intro _ after hmore
      obtain ⟨hstands₂, ⟨names, rfl, hreads⟩, hle⟩ := hmore
      have hposition' := LawfulCursor.position_advance after
      refine expecting_close (.inl rfl) hstands₂ hreads.stops ?_
      intro hright' hstands₃
      rw [hstands₂.remaining_eq] at hreads
      rw [ensures_pure]
      refine ⟨hstands₃, ⟨_, rfl, ?_⟩, by omega⟩
      rw [h.remaining_eq]
      exact .cons hname hreads hright'

theorem function_follows {fuel : Nat} {block : Parse κ Block}
    (hfuel : tokens.length ≤ Cursor.position cursor + fuel)
    (hblock : ParsesBlock tokens (Cursor.position cursor + 1) block)
    (h : Stands tokens cursor (.expression :: goals))
    (hk : (Cursor.current cursor).kind = .funWord) :
    Ensures (RefusedAt tokens) (function (parameters fuel) block) cursor
      (Opened tokens cursor goals) := by
  have hword : Stands tokens (Cursor.advance cursor)
      (.token .leftParen :: .parameters :: .token .leftBrace :: .block ::
        .continuations :: goals) :=
    opening_advance h (opening?_funWord hk)
  have hposition₁ := LawfulCursor.position_advance cursor
  simp only [function, ensures_bind, ensures_current]
  refine hword.expecting_token (by decide) fun hleft hstands₁ => ?_
  rw [ensures_bind]
  refine (parameters_follows (by omega) hstands₁).mono ?_
  intro _ after₁ hparameters
  obtain ⟨hstands₂, ⟨names, rfl, hreads₁⟩, hle₁⟩ := hparameters
  have hposition₂ := LawfulCursor.position_advance after₁
  refine hstands₂.expecting_token (by decide) fun hbrace _ => ?_
  rw [ensures_bind]
  refine (hblock _ _ (by omega) hstands₂ hbrace).mono ?_
  intro body after₂ hbody
  obtain ⟨hstands₃, hreads₂, hle₂⟩ := hbody
  rw [ensures_pure]
  refine ⟨hstands₃, ?_, by omega⟩
  rw [h.remaining_eq, hword.remaining_eq]
  exact .function hk hleft hreads₁ hreads₂

/-- The form that the current token opens leaves behind what it should, and where the current token
opens none the recognizer refuses it. -/
theorem opening?_follows (fuel : Nat) {expression : Precedence → Parse κ Expression}
    {block : Parse κ Block} (hfuel : tokens.length ≤ Cursor.position cursor + fuel)
    (hexpression : ∀ floor,
      ParsesExpression tokens (Cursor.position cursor + 1) floor (expression floor))
    (hblock : ParsesBlock tokens (Cursor.position cursor + 1) block)
    (h : Stands tokens cursor (.expression :: goals)) :
    match opening? expression (parameters fuel) block (Cursor.current cursor).kind with
    | none => step (.expression :: goals) (Cursor.current cursor) = none
    | some opening => Ensures (RefusedAt tokens) opening cursor (Opened tokens cursor goals) := by
  have hstep := step_expression (Cursor.current cursor) goals
  cases hk : (Cursor.current cursor).kind with
  | identifier => exact identifier_follows h hk
  | number => exact number_follows h hk
  | trueWord => exact boolean_follows h (.inl hk)
  | falseWord => exact boolean_follows h (.inr hk)
  | bang => exact unary_follows (hexpression _) h (.inl hk)
  | minus => exact unary_follows (hexpression _) h (.inr hk)
  | leftParen => exact group_follows (hexpression _) h hk
  | ifWord => exact conditional_follows (hexpression _) hblock h hk
  | funWord => exact function_follows hfuel hblock h hk
  | _ => exact hstep.trans (by rw [Recognizer.opening?, hk]; rfl)

/-! ## Continuations -/

/-- What is relied on for further arguments, from a position on. -/
def ParsesMoreArguments (tokens : List Token) (limit : Nat) (p : Parse κ (List Expression)) :
    Prop :=
  ∀ (cursor : κ) (goals : List Goal), limit ≤ Cursor.position cursor →
    Stands tokens (Cursor.advance cursor) (.moreArguments :: goals) →
    Ensures (RefusedAt tokens) p cursor
      (Leaves tokens (.moreArguments :: goals) (Cursor.position cursor)
        (ReadsMoreArguments (Cursor.remaining tokens (Cursor.advance cursor))))

omit [LawfulCursor κ] in
theorem ParsesMoreArguments.mono {limit limit' : Nat} {p : Parse κ (List Expression)}
    (h : ParsesMoreArguments tokens limit p) (hle : limit ≤ limit') :
    ParsesMoreArguments tokens limit' p :=
  fun cursor goals hlimit => h cursor goals (hle.trans hlimit)

theorem arguments_follows {expression : Parse κ Expression} {more : Parse κ (List Expression)}
    (hexpression : ParsesExpression tokens (Cursor.position cursor + 1) .lowest expression)
    (hmore : ParsesMoreArguments tokens (Cursor.position cursor + 1) more)
    (h : Stands tokens (Cursor.advance cursor) (.arguments :: goals)) :
    Ensures (RefusedAt tokens) (arguments expression more) cursor
      (Leaves tokens goals (Cursor.position cursor) fun value rest =>
        ∃ arguments, value = .ok arguments ∧
          ReadsArguments (Cursor.remaining tokens (Cursor.advance cursor)) arguments rest) := by
  have hposition := LawfulCursor.position_advance cursor
  rw [arguments, ensures_bind, ensures_peek, ← LawfulCursor.current_advance cursor]
  split
  next hright =>
    have hstep : step (.arguments :: goals) (Cursor.current (Cursor.advance cursor)) =
        some goals := by
      simp [step, Goal.react, hright]
    rw [ensures_bind, ensures_advance, ensures_pure]
    refine ⟨h.advance hstep (by simp [hright]), ⟨[], rfl, ?_⟩, by omega⟩
    rw [h.remaining_eq]
    exact .none hright
  next hright =>
    -- arguments that do not end at once start with an expression
    have hstep : step (.arguments :: goals) (Cursor.current (Cursor.advance cursor)) =
        step (.expression :: .moreArguments :: goals)
          (Cursor.current (Cursor.advance cursor)) := by
      rw [step_expression]
      cases hopening : Recognizer.opening? (Cursor.current (Cursor.advance cursor)) <;>
        simp [step, Goal.react, Reaction.ofGoals?, hright, hopening]
    simp only [ensures_bind, ensures_advance]
    refine (hexpression _ _ (by omega) (h.congr hstep)).mono ?_
    intro first after₁ hleaves₁
    have hle₁ := hleaves₁.le
    refine (hmore _ _ (by omega) hleaves₁.ended).mono ?_
    intro others after₂ hothers
    obtain ⟨hstands₂, hreads₂, hle₂⟩ := hothers
    have hposition' := LawfulCursor.position_advance after₂
    refine expecting_close (.inr rfl) hstands₂ hreads₂.stops ?_
    intro hright' hstands₃
    rw [hstands₂.remaining_eq] at hreads₂
    rw [ensures_pure]
    exact ⟨hstands₃, ⟨_, rfl, .cons hleaves₁.reads hreads₂ hright'⟩, by omega⟩

/-- What a continuation leaves behind: whatever the folded left side goes on with, the left side
goes on with the continuation and that. -/
abbrev Continued (tokens : List Token) (cursor : κ) (goals : List Goal) (floor : Precedence)
    (left : Expression) : Expression → κ → Prop :=
  Leaves tokens (.continuations :: goals) (Cursor.position cursor) fun folded middle =>
    ∀ e rest, ReadsClimb floor folded middle e rest →
      ReadsClimb floor left (Cursor.remaining tokens cursor) e rest

/-- An operator that binds tighter than the floor is read with its right side. -/
theorem continuation_follows {floor : Precedence} {expression : Precedence → Parse κ Expression}
    {more : Parse κ (List Expression)} {left : Expression}
    (hexpression : ∀ floor,
      ParsesExpression tokens (Cursor.position cursor + 1) floor (expression floor))
    (hmore : ParsesMoreArguments tokens (Cursor.position cursor + 1) more)
    (h : Stands tokens cursor (.continuations :: goals))
    (hlt : floor < (Cursor.current cursor).kind.precedence) :
    Ensures (RefusedAt tokens)
      (continuation expression more (Cursor.current cursor).kind left) cursor
      (Continued tokens cursor goals floor left) := by
  have hposition := LawfulCursor.position_advance cursor
  unfold continuation
  split
  next hk =>
    have hstep : step (.continuations :: goals) (Cursor.current cursor) =
        some (.arguments :: .continuations :: goals) := by
      simp [step, Goal.react, continuation?_leftParen hk]
    have hstands := h.advance hstep (by simp [hk])
    simp only [call, ensures_bind, ensures_current]
    refine (arguments_follows (hexpression _) hmore hstands).mono ?_
    intro _ after harguments
    obtain ⟨hstands', ⟨arguments, rfl, hreads⟩, hle⟩ := harguments
    rw [hk] at hlt
    rw [ensures_pure]
    refine ⟨hstands', ?_, hle⟩
    intro e rest hclimb
    rw [h.remaining_eq]
    exact .call hlt hk hreads hclimb
  next hk =>
    have hlowest := Precedence.ne_lowest_of_lt hlt
    have hstep : step (.continuations :: goals) (Cursor.current cursor) =
        some (.expression :: goals) := by
      simp [step, Goal.react, continuation?_binary hlowest hk]
    have hstands := h.advance hstep (by intro heof; rw [heof] at hlowest; exact hlowest rfl)
    simp only [binary, ensures_bind, ensures_current, ensures_advance, ensures_pure]
    refine (hexpression _ _ _ (by omega) hstands).mono ?_
    intro right after hright
    obtain ⟨hstands', hreads, hle⟩ := hright
    refine ⟨hstands', ?_, by omega⟩
    intro e rest hclimb
    rw [h.remaining_eq]
    exact .binary hlt hk hreads hclimb

/-! ## Statements -/

theorem optionalSemicolon_follows
    (h : Stands tokens (Cursor.advance cursor) (.semicolon :: goals)) :
    Ensures (RefusedAt tokens) optionalSemicolon cursor
      (Leaves tokens goals (Cursor.position cursor) fun _ rest =>
        ReadsSemicolon (Cursor.remaining tokens (Cursor.advance cursor)) rest) := by
  have hposition := LawfulCursor.position_advance cursor
  rw [ensures_optionalSemicolon, ← LawfulCursor.current_advance cursor]
  split
  next hk =>
    have hstep : step (.semicolon :: goals) (Cursor.current (Cursor.advance cursor)) =
        some goals := by
      simp [step, Goal.react, hk]
    refine ⟨h.advance hstep (by simp [hk]), ?_, by omega⟩
    rw [h.remaining_eq]
    exact .present hk
  next hk =>
    refine ⟨h.pass (if_neg hk), ?_, Nat.le_refl _⟩
    rw [h.remaining_eq]
    exact .absent hk

/-- What a statement leaves behind. -/
abbrev Stated (tokens : List Token) (cursor : κ) (goals : List Goal) :
    Option Statement → κ → Prop :=
  Leaves tokens goals (Cursor.position cursor) fun value rest =>
    ∃ statement, value = some statement ∧
      ReadsStatement (Cursor.remaining tokens cursor) statement rest

section statements

variable {before : List Goal} {expression : Parse κ Expression}

theorem declaration_follows
    (hexpression : ParsesExpression tokens (Cursor.position cursor) .lowest expression)
    (h : Stands tokens cursor before)
    (hk : (Cursor.current cursor).kind = .sayWord ∨ (Cursor.current cursor).kind = .invarWord)
    (hstep : step before (Cursor.current cursor) =
      some (.token .identifier :: .token .assign :: .expression :: .semicolon :: goals)) :
    Ensures (RefusedAt tokens) (declaration expression) cursor (Stated tokens cursor goals) := by
  have hword := h.advance hstep (by rcases hk with hk | hk <;> rw [hk] <;> decide)
  have hposition₁ := LawfulCursor.position_advance cursor
  have hposition₂ := LawfulCursor.position_advance (Cursor.advance cursor)
  have hposition₃ := LawfulCursor.position_advance (Cursor.advance (Cursor.advance cursor))
  simp only [declaration, ensures_bind, ensures_current]
  refine hword.expecting_token (by decide) fun hname hstands₁ => ?_
  simp only [ensures_bind, ensures_name]
  refine hstands₁.expecting_token (by decide) fun hsign hstands₂ => ?_
  simp only [ensures_bind, ensures_advance]
  refine (hexpression _ _ (by omega) hstands₂).mono ?_
  intro value after₁ hleaves
  have hle := hleaves.le
  refine (optionalSemicolon_follows hleaves.ended).mono ?_
  intro _ after₂ hend
  obtain ⟨hstands₃, hsemicolon, hle'⟩ := hend
  rw [ensures_pure]
  refine ⟨hstands₃, ⟨_, rfl, ?_⟩, by omega⟩
  rw [h.remaining_eq, hword.remaining_eq, hstands₁.remaining_eq]
  exact .declaration hk hname hsign hleaves.reads hsemicolon

theorem returning_follows
    (hexpression : ParsesExpression tokens (Cursor.position cursor) .lowest expression)
    (h : Stands tokens cursor before) (hk : (Cursor.current cursor).kind = .returnWord)
    (hstep : step before (Cursor.current cursor) = some (.returned :: .semicolon :: goals)) :
    Ensures (RefusedAt tokens) (returning expression) cursor
      (Leaves tokens goals (Cursor.position cursor)
        (ReadsStatement (Cursor.remaining tokens cursor))) := by
  have hword := h.advance hstep (by simp [hk])
  have hposition := LawfulCursor.position_advance cursor
  simp only [returning, ensures_bind, ensures_current, ensures_peek]
  rw [← LawfulCursor.current_advance cursor]
  split
  next hend =>
    rw [ensures_bind]
    refine (optionalSemicolon_follows (hword.pass (if_pos hend))).mono ?_
    intro _ after hsign
    obtain ⟨hstands, hsemicolon, hle⟩ := hsign
    rw [ensures_pure]
    refine ⟨hstands, ?_, hle⟩
    rw [h.remaining_eq]
    refine .bareReturn hk ?_ hsemicolon
    rw [hword.remaining_eq]
    exact hend
  next hend =>
    -- a return that is not ended must have a value
    have hstep' : step (.returned :: .semicolon :: goals)
        (Cursor.current (Cursor.advance cursor)) =
          step (.expression :: .semicolon :: goals) (Cursor.current (Cursor.advance cursor)) := by
      simp only [step, Goal.react, if_neg hend]
    simp only [ensures_bind, ensures_advance]
    refine (hexpression _ _ (by omega) (hword.congr hstep')).mono ?_
    intro value after₁ hleaves
    have hle := hleaves.le
    refine (optionalSemicolon_follows hleaves.ended).mono ?_
    intro _ after₂ hsign
    obtain ⟨hstands₂, hsemicolon, hle'⟩ := hsign
    rw [ensures_pure]
    refine ⟨hstands₂, ?_, by omega⟩
    rw [h.remaining_eq]
    exact .returnOf hk hleaves.reads hsemicolon

theorem expressionStatement_follows
    (hexpression : ParsesExpression tokens (Cursor.position cursor) .lowest expression)
    (h : Stands tokens cursor (.expression :: .semicolon :: goals)) :
    Ensures (RefusedAt tokens) (expressionStatement expression) cursor
      (Leaves tokens goals (Cursor.position cursor)
        (ReadsStatement (Cursor.remaining tokens cursor))) := by
  simp only [expressionStatement, ensures_bind, ensures_current]
  refine (hexpression _ _ (Nat.le_refl _) h).mono ?_
  intro value after₁ hleaves
  have hle := hleaves.le
  have hreads := hleaves.reads
  refine (optionalSemicolon_follows hleaves.ended).mono ?_
  intro _ after₂ hend
  obtain ⟨hstands₂, hsemicolon, hle'⟩ := hend
  rw [ensures_pure]
  refine ⟨hstands₂, ?_, by omega⟩
  rw [h.remaining_eq] at hreads ⊢
  exact .expression hreads hsemicolon

theorem statement_follows
    (hexpression : ParsesExpression tokens (Cursor.position cursor) .lowest expression)
    (h : Stands tokens cursor before)
    (hstep : step before (Cursor.current cursor) =
      (statement? (Cursor.current cursor)).map (· ++ goals)) :
    Ensures (RefusedAt tokens) (statement expression) cursor (Stated tokens cursor goals) := by
  simp only [statement, ensures_bind, ensures_current, ensures_position, ensures_record_statement]
  split
  next hk =>
    rw [statement?_declaration (.inl hk)] at hstep
    exact declaration_follows hexpression h (.inl hk) hstep
  next hk =>
    rw [statement?_declaration (.inr hk)] at hstep
    exact declaration_follows hexpression h (.inr hk) hstep
  next hk =>
    rw [statement?_return hk] at hstep
    rw [ensures_bind]
    refine (returning_follows hexpression h hk hstep).mono ?_
    intro value after hreturned
    obtain ⟨hstands, hreads, hle⟩ := hreturned
    exact ⟨hstands, ⟨value, rfl, hreads⟩, hle⟩
  next hsay hinvar hreturn =>
    -- the token starts an expression or nothing, and goals for an expression refuse it just so
    have hstep' : step before (Cursor.current cursor) =
        step (.expression :: .semicolon :: goals) (Cursor.current cursor) := by
      rw [hstep, step_expression]
      unfold statement?
      split
      next hk => exact absurd hk hsay
      next hk => exact absurd hk hinvar
      next hk => exact absurd hk hreturn
      next => simp [Function.comp_def]
    rw [ensures_bind]
    refine (expressionStatement_follows hexpression (h.congr hstep')).mono ?_
    intro value after hstated
    obtain ⟨hstands, hreads, hle⟩ := hstated
    exact ⟨hstands, ⟨value, rfl, hreads⟩, hle⟩

end statements

/-! ## The forms tied together -/

/-- What is relied on for statements up to a token of some kind, from a position on. The parser ends
on that token. -/
def ParsesBody (tokens : List Token) (limit : Nat) (goal : Goal) (last : Kind)
    (p : Parse κ (List Statement)) : Prop :=
  ∀ (cursor : κ) (goals : List Goal), limit ≤ Cursor.position cursor →
    Stands tokens cursor (goal :: goals) →
    Ensures (RefusedAt tokens) p cursor fun statements after =>
      Stands tokens after (goal :: goals) ∧ (Cursor.current after).kind = last ∧
        ReadsStatements (Cursor.remaining tokens cursor) statements
          (Cursor.remaining tokens after) ∧
        Cursor.position cursor ≤ Cursor.position after

omit [LawfulCursor κ] in
theorem ParsesBody.mono {limit limit' : Nat} {goal : Goal} {last : Kind}
    {p : Parse κ (List Statement)} (h : ParsesBody tokens limit goal last p)
    (hle : limit ≤ limit') : ParsesBody tokens limit' goal last p :=
  fun cursor goals hlimit => h cursor goals (hle.trans hlimit)

theorem block_follows {limit : Nat} {statements : Parse κ (List Statement)}
    (hstatements : ParsesBody tokens (limit + 1) .block .rightBrace statements) :
    ParsesBlock tokens limit (block statements) := by
  intro cursor goals hlimit h hk
  have hstands := h.advance (step_token_of_eq hk _) (by simp [hk])
  have hposition := LawfulCursor.position_advance cursor
  simp only [block, ensures_bind, ensures_current, ensures_advance, ensures_pure]
  refine (hstatements _ _ (by omega) hstands).mono ?_
  intro body after hbody
  obtain ⟨hafter, hright, hreads, hle⟩ := hbody
  have hstep : step (.block :: goals) (Cursor.current after) = some goals := by
    simp [step, Goal.react, hright]
  refine ⟨hafter.advance hstep (by simp [hright]), ?_, by omega⟩
  rw [hafter.remaining_eq] at hreads
  rw [h.remaining_eq]
  exact .mk hk hreads hright

/-- What a given fuel is enough for: the more of it, the earlier the position from where on the
parsers of the parts can be relied on. -/
structure Ties (κ : Type) [Cursor κ] [LawfulCursor κ] (tokens : List Token) (fuel : Nat) :
    Prop where
  /-- Expressions. -/
  expression (floor : Precedence) :
    ParsesExpression tokens (tokens.length + 1 - fuel) floor
      (expression fuel floor : Parse κ Expression)
  /-- What an expression goes on with. -/
  climb (floor : Precedence) (left : Expression) (cursor : κ) (goals : List Goal) :
    tokens.length - fuel ≤ Cursor.position cursor →
    Stands tokens (Cursor.advance cursor) (.continuations :: goals) →
    Ensures (RefusedAt tokens) (climb fuel floor left) cursor
      (Leaves tokens (.continuations :: goals) (Cursor.position cursor)
        (ReadsClimb floor left (Cursor.remaining tokens (Cursor.advance cursor))))
  /-- Further arguments. -/
  moreArguments :
    ParsesMoreArguments tokens (tokens.length - fuel)
      (moreArguments fuel : Parse κ (List Expression))
  /-- Statements of a block. -/
  blockStatements :
    ParsesBody tokens (tokens.length + 2 - fuel) .block .rightBrace
      (blockStatements fuel : Parse κ (List Statement))

variable {fuel : Nat}

theorem expression_follows (hties : Ties κ tokens fuel) (floor : Precedence) :
    ParsesExpression tokens (tokens.length + 1 - (fuel + 1)) floor
      (expression (fuel + 1) floor : Parse κ Expression) := by
  intro cursor goals hlimit h
  have hopening := opening?_follows fuel (by omega)
    (fun floor => (hties.expression floor).mono (by omega))
    (block_follows (hties.blockStatements.mono (by omega))) h
  simp only [expression, ensures_bind, ensures_position, ensures_record_expression,
    ensures_current]
  -- the form is named so that the case split does not open it
  generalize opening? (expression fuel : Precedence → Parse κ Expression) (parameters fuel)
    (block (blockStatements fuel)) (Cursor.current cursor).kind = form at hopening ⊢
  cases form with
  | none => exact h.refused hopening ⟨rfl, rfl⟩
  | some opening =>
    show Ensures (RefusedAt tokens) (opening >>= climb fuel floor) cursor _
    rw [ensures_bind]
    refine hopening.mono ?_
    intro left after₁ hopened
    obtain ⟨hstands₁, hreads₁, hle₁⟩ := hopened
    refine (hties.climb floor left after₁ goals (by omega) hstands₁).mono ?_
    intro e after₂ hclimbed
    obtain ⟨hstands₂, hreads₂, hle₂⟩ := hclimbed
    exact ⟨hstands₂, .mk hreads₁ hreads₂, hle₁.trans hle₂⟩

theorem climb_follows (hties : Ties κ tokens fuel) (floor : Precedence) (left : Expression)
    (cursor : κ) (goals : List Goal) (hlimit : tokens.length - (fuel + 1) ≤ Cursor.position cursor)
    (h : Stands tokens (Cursor.advance cursor) (.continuations :: goals)) :
    Ensures (RefusedAt tokens) (climb (fuel + 1) floor left) cursor
      (Leaves tokens (.continuations :: goals) (Cursor.position cursor)
        (ReadsClimb floor left (Cursor.remaining tokens (Cursor.advance cursor)))) := by
  have hposition := LawfulCursor.position_advance cursor
  rw [climb, ensures_bind, ensures_peek, ← LawfulCursor.current_advance cursor]
  split
  next hlt =>
    simp only [ensures_bind, ensures_advance]
    refine (continuation_follows (fun floor => (hties.expression floor).mono (by omega))
      (hties.moreArguments.mono (by omega)) h hlt).mono ?_
    intro folded after₁ hcontinued
    obtain ⟨hstands₁, hreads₁, hle₁⟩ := hcontinued
    refine (hties.climb floor folded after₁ goals (by omega) hstands₁).mono ?_
    intro e after₂ hclimbed
    obtain ⟨hstands₂, hreads₂, hle₂⟩ := hclimbed
    exact ⟨hstands₂, hreads₁ _ _ hreads₂, by omega⟩
  next hstop =>
    rw [ensures_pure]
    refine ⟨h, ?_, Nat.le_refl _⟩
    rw [h.remaining_eq]
    exact .stop hstop

theorem moreArguments_follows (hties : Ties κ tokens fuel) :
    ParsesMoreArguments tokens (tokens.length - (fuel + 1))
      (moreArguments (fuel + 1) : Parse κ (List Expression)) := by
  intro cursor goals hlimit h
  have hposition₁ := LawfulCursor.position_advance cursor
  have hposition₂ := LawfulCursor.position_advance (Cursor.advance cursor)
  rw [moreArguments, ensures_bind, ensures_peek, ← LawfulCursor.current_advance cursor]
  split
  next hcomma =>
    have hstep : step (.moreArguments :: goals) (Cursor.current (Cursor.advance cursor)) =
        some (.expression :: .moreArguments :: goals) := by
      simp [step, Goal.react, hcomma]
    have hstands := h.advance hstep (by simp [hcomma])
    simp only [ensures_bind, ensures_advance, ensures_pure]
    refine (hties.expression .lowest _ _ (by omega) hstands).mono ?_
    intro next after₁ hleaves
    have hle₁ := hleaves.le
    refine (hties.moreArguments _ _ (by omega) hleaves.ended).mono ?_
    intro others after₂ hothers
    obtain ⟨hstands₂, hreads₂, hle₂⟩ := hothers
    refine ⟨hstands₂, ?_, by omega⟩
    rw [h.remaining_eq]
    exact .cons hcomma hleaves.reads hreads₂
  next hcomma =>
    rw [ensures_pure]
    refine ⟨h, ?_, Nat.le_refl _⟩
    rw [h.remaining_eq]
    exact .stop hcomma

/-- A statement and then the others, wherever the goal is one of statements. -/
theorem body_cons {goal : Goal} {last : Kind} {limit : Nat} {expression : Parse κ Expression}
    {others : Parse κ (List Statement)}
    (hexpression : ParsesExpression tokens limit .lowest expression)
    (hothers : ParsesBody tokens (limit + 1) goal last others) {cursor : κ}
    (hlimit : limit ≤ Cursor.position cursor) (h : Stands tokens cursor (goal :: goals))
    (hstep : step (goal :: goals) (Cursor.current cursor) =
      (statement? (Cursor.current cursor)).map (· ++ goal :: goals)) :
    Ensures (RefusedAt tokens)
      (do
        let first ← statement expression
        advance
        return first.toList ++ (← others)) cursor
      fun statements after =>
        Stands tokens after (goal :: goals) ∧ (Cursor.current after).kind = last ∧
          ReadsStatements (Cursor.remaining tokens cursor) statements
            (Cursor.remaining tokens after) ∧
          Cursor.position cursor ≤ Cursor.position after := by
  simp only [ensures_bind, ensures_advance, ensures_pure]
  refine (statement_follows (hexpression.mono hlimit) h hstep).mono ?_
  intro _ after₁ hfirst
  obtain ⟨hstands₁, ⟨first, rfl, hreads₁⟩, hle₁⟩ := hfirst
  have hposition := LawfulCursor.position_advance after₁
  refine (hothers _ _ (by omega) hstands₁).mono ?_
  intro rest after₂ hrest
  obtain ⟨hstands₂, hlast, hreads₂, hle₂⟩ := hrest
  exact ⟨hstands₂, hlast, .cons hreads₁ hreads₂, by omega⟩

theorem blockStatements_follows (hties : Ties κ tokens fuel) :
    ParsesBody tokens (tokens.length + 2 - (fuel + 1)) .block .rightBrace
      (blockStatements (fuel + 1) : Parse κ (List Statement)) := by
  intro cursor goals hlimit h
  rw [blockStatements, ensures_bind, ensures_current]
  split
  next hright =>
    rw [ensures_pure]
    refine ⟨h, hright, ?_, Nat.le_refl _⟩
    rw [h.remaining_eq]
    exact .stop (.inl hright)
  next heof =>
    -- a block that is never closed is found wrong at the end of input
    have hstep : step (.block :: goals) (Cursor.current cursor) = none := by
      simp [step, Goal.react, statement?, Recognizer.opening?, Reaction.ofGoals?, heof]
    rw [ensures_bind, ensures_reject]
    exact h.refused hstep ⟨rfl, rfl⟩
  next hright heof =>
    exact body_cons ((hties.expression .lowest).mono (by omega))
      (hties.blockStatements.mono (by omega)) hlimit h (step_block hright goals)

/-- Every fuel is enough from some position on. -/
theorem ties (fuel : Nat) : Ties κ tokens fuel := by
  induction fuel with
  | zero =>
    -- no cursor stands as far on as these positions
    refine ⟨?_, ?_, ?_, ?_⟩
    · intro floor cursor goals hlimit h
      have hlt := h.lt
      omega
    · intro floor left cursor goals hlimit h
      have hlt := h.lt
      have hposition := LawfulCursor.position_advance cursor
      omega
    · intro cursor goals hlimit h
      have hlt := h.lt
      have hposition := LawfulCursor.position_advance cursor
      omega
    · intro cursor goals hlimit h
      have hlt := h.lt
      omega
  | succ fuel ih =>
    -- the parsers of the parts have one less, which the positions allow for
    exact ⟨expression_follows ih, climb_follows ih, moreArguments_follows ih,
      blockStatements_follows ih⟩

theorem statements_follows (fuel : Nat) :
    ParsesBody tokens (tokens.length + 2 - fuel) .program .eof
      (statements fuel : Parse κ (List Statement)) := by
  induction fuel with
  | zero =>
    intro cursor goals hlimit h
    have hlt := h.lt
    omega
  | succ fuel ih =>
    intro cursor goals hlimit h
    rw [statements, ensures_bind, ensures_current]
    split
    next heof =>
      rw [ensures_pure]
      refine ⟨h, heof, ?_, Nat.le_refl _⟩
      rw [h.remaining_eq]
      exact .stop (.inr heof)
    next heof =>
      exact body_cons (((ties fuel).expression .lowest).mono (by omega)) (ih.mono (by omega))
        hlimit h (step_program heof goals)

end Parse

/-- The parser of a whole program finds nothing wrong in what the recognizer accepts, and answers
the reading of it. What it finds wrong first is what the recognizer refuses. -/
theorem parseFrom_follows {tokens : List Token} {cursor : κ}
    (h : Cursor.Starts cursor tokens) :
    match firstDiagnostic (parseFrom cursor).events with
    | none => Accepts [.program] tokens ∧ ReadsProgram tokens (parseFrom cursor).program
    | some found => RefusedAt tokens found.1 found.2 := by
  have hposition := h.position_eq
  have hahead := h.length_le
  have hall : Cursor.remaining tokens cursor = tokens := by
    rw [Cursor.remaining, hposition, List.drop_zero]
  have hlength := List.length_pos_iff.mpr h.upToEof.ne_nil
  have hstands : Stands tokens cursor [.program] := by
    refine ⟨h.upToEof, by omega, ?_, [.program], ?_, rfl⟩
    · rw [hall]
      exact h.sees
    · rw [hposition]
      rfl
  -- the body ends at the end of input, where the recognizer has accepted everything
  have hensures : Parse.Ensures (RefusedAt tokens) Parse.program cursor fun program _ =>
      Accepts [.program] tokens ∧ ReadsProgram tokens program := by
    simp only [Parse.program, Parse.ensures_bind, Parse.ensures_look, Parse.ensures_pure]
    refine (Parse.statements_follows _ cursor [] (by omega) hstands).mono ?_
    intro statements after hbody
    obtain ⟨hafter, heof, hreads, -⟩ := hbody
    obtain ⟨haccepts, hlast⟩ := hafter.accepts heof
    rw [hall, hlast] at hreads
    exact ⟨haccepts, .mk hreads heof⟩
  exact hensures

/-- Nothing is found wrong exactly in what the recognizer accepts. -/
theorem diagnostics_eq_nil_iff_accepts {tokens : List Token} {cursor : κ}
    (h : Cursor.Starts cursor tokens) :
    (parseFrom cursor).diagnostics = [] ↔ Accepts [.program] tokens := by
  have hfollows := parseFrom_follows h
  rw [Parsed.diagnostics, diagnostics_eq_nil_iff_firstDiagnostic]
  cases hfirst : firstDiagnostic (parseFrom cursor).events with
  | none =>
    rw [hfirst] at hfollows
    exact ⟨fun _ => hfollows.1, fun _ => rfl⟩
  | some found =>
    rw [hfirst] at hfollows
    exact ⟨fun hnone => absurd hnone (Option.some_ne_none found),
      fun haccepts => absurd haccepts hfollows.not_accepts⟩

/-- When nothing is found wrong, the program answered is the reading of the tokens. -/
theorem readsProgram_of_diagnostics_eq_nil {tokens : List Token} {cursor : κ}
    (h : Cursor.Starts cursor tokens) (hclean : (parseFrom cursor).diagnostics = []) :
    ReadsProgram tokens (parseFrom cursor).program := by
  have hfollows := parseFrom_follows h
  rw [Parsed.diagnostics, diagnostics_eq_nil_iff_firstDiagnostic] at hclean
  rw [hclean] at hfollows
  exact hfollows.2

/-- The first thing found wrong is what the recognizer refuses. -/
theorem refusedAt_of_diagnostics_ne_nil {tokens : List Token} {cursor : κ}
    (h : Cursor.Starts cursor tokens) (hfaulty : (parseFrom cursor).diagnostics ≠ []) :
    ∃ position found, (parseFrom cursor).diagnostics.head? = some found ∧
      RefusedAt tokens position found := by
  have hfollows := parseFrom_follows h
  rw [Parsed.diagnostics, ne_eq, diagnostics_eq_nil_iff_firstDiagnostic] at hfaulty
  obtain ⟨found, hfound⟩ := Option.ne_none_iff_exists'.mp hfaulty
  rw [hfound] at hfollows
  refine ⟨found.1, found.2, ?_, hfollows⟩
  rw [Parsed.diagnostics, head?_diagnostics, hfound]
  rfl

end SayLang
