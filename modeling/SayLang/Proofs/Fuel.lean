import SayLang.Proofs.Outlook

/-!
# The fuel of the parser is enough

The parser recurses on a number, its fuel. `Agree before after p q` says that two pieces of the
parser run alike, values, events and all, wherever the end of input is at most `before` tokens
ahead, and that it is at most `after` tokens ahead then. The parsers of any two amounts of fuel
agree, as long as both amounts are greater than the number of tokens ahead.

> `Agree.bind`: sequences agree when their parts do.
> `Parse.agreement`: the recursive parsers, whatever their fuel.
> `Parse.statements_agree`: all statements, and the run ends at the end of input.

Every form of the grammar consumes a token before it calls on an expression or a block, so each of
them agrees where its parts do one token further on. That is why the recursion is on the tokens
ahead and not on the fuel.
-/

namespace SayLang

/-! ## Tokens ahead -/

section within

variable {κ : Type} [Cursor κ] {ahead ahead' : Nat} {cursor : κ}

/-- The end of input is at most so many tokens ahead, and nothing else comes behind it. -/
structure Cursor.Within (ahead : Nat) (cursor : κ) : Prop where
  /-- There is only the end of input from there on. -/
  kind_eq_eof {n : Nat} : ahead ≤ n → (Cursor.nth cursor n).kind = .eof
  /-- Behind the end of input there is the end of input. -/
  stays {n : Nat} : (Cursor.nth cursor n).kind = .eof → (Cursor.nth cursor (n + 1)).kind = .eof

namespace Cursor.Within

theorem mono (h : Cursor.Within ahead cursor) (hle : ahead ≤ ahead') :
    Cursor.Within ahead' cursor :=
  ⟨fun hn => h.kind_eq_eof (Nat.le_trans hle hn), h.stays⟩

theorem advance (h : Cursor.Within ahead cursor) (hle : ahead ≤ ahead' + 1) :
    Cursor.Within ahead' (Cursor.advance cursor) :=
  ⟨fun {n} hn => h.kind_eq_eof (show ahead ≤ n + 1 by omega), fun {n} => h.stays (n := n + 1)⟩

/-- At the end of input nothing else is ahead. -/
theorem of_eof (h : Cursor.Within ahead cursor) (heof : (Cursor.current cursor).kind = .eof) :
    Cursor.Within 0 cursor := by
  refine ⟨fun {n} _ => ?_, h.stays⟩
  induction n with
  | zero => exact heof
  | succ n ih => exact h.stays (ih (Nat.zero_le n))

/-- In front of the end of input there is at least one token ahead. -/
theorem pos (h : Cursor.Within ahead cursor) (hne : (Cursor.current cursor).kind ≠ .eof) :
    0 < ahead := by
  by_contra hzero
  exact hne (h.kind_eq_eof (n := 0) (by omega))

/-- Where the end of input is not the next token there are two. -/
theorem one_lt [LawfulCursor κ] (h : Cursor.Within ahead cursor)
    (hne : (Cursor.peek cursor).kind ≠ .eof) : 1 < ahead := by
  by_contra hle
  rw [← Cursor.nth_one] at hne
  exact hne (h.kind_eq_eof (by omega))

end Cursor.Within

end within

namespace Parse

variable {κ α β : Type} [Cursor κ] {before middle after : Nat} {cursor : κ}

/-! ## Pieces that agree -/

/-- At the cursor both pieces run alike, and the end of input is so near then. -/
def AgreeAt (cursor : κ) (after : Nat) (p q : Parse κ α) : Prop :=
  p.run cursor = q.run cursor ∧ Cursor.Within after (p.run cursor).state

/-- That, wherever the end of input is near enough. -/
def Agree (before after : Nat) (p q : Parse κ α) : Prop :=
  ∀ ⦃cursor : κ⦄, Cursor.Within before cursor → AgreeAt cursor after p q

theorem AgreeAt.bind {p q : Parse κ α} {f g : α → Parse κ β} (h : AgreeAt cursor middle p q)
    (hf : ∀ a, Agree middle after (f a) (g a)) : AgreeAt cursor after (p >>= f) (q >>= g) := by
  obtain ⟨hrun, hwithin⟩ := h
  obtain ⟨hrun', hwithin'⟩ := hf (p.run cursor).value hwithin
  refine ⟨?_, ?_⟩
  · rw [Traced.run_bind, Traced.run_bind, ← hrun, hrun']
  · rw [Traced.run_bind]
    exact hwithin'

/-- Sequences agree when their parts do. -/
theorem Agree.bind {p q : Parse κ α} {f g : α → Parse κ β} (h : Agree before middle p q)
    (hf : ∀ a, Agree middle after (f a) (g a)) : Agree before after (p >>= f) (q >>= g) :=
  fun _ hwithin => (h hwithin).bind hf

theorem Agree.mono {before' after' : Nat} {p q : Parse κ α} (h : Agree before after p q)
    (hbefore : before' ≤ before) (hafter : after ≤ after') : Agree before' after' p q := by
  intro cursor hwithin
  obtain ⟨hrun, hwithin'⟩ := h (hwithin.mono hbefore)
  exact ⟨hrun, hwithin'.mono hafter⟩

/-- A piece that stays where it is agrees with itself. -/
theorem agree_of_still {p : Parse κ α} (h : ∀ cursor, (p.run cursor).state = cursor) :
    Agree before before p p := by
  intro cursor hwithin
  refine ⟨rfl, ?_⟩
  rw [h]
  exact hwithin

theorem agree_pure (a : α) (hle : before ≤ after) :
    Agree before after (pure a : Parse κ α) (pure a) :=
  (agree_of_still fun _ => rfl).mono hle (Nat.le_refl _)

theorem agree_current : Agree before before (current : Parse κ Token) current :=
  agree_of_still fun _ => rfl

theorem agree_peek : Agree before before (peek : Parse κ Token) peek :=
  agree_of_still fun _ => rfl

theorem agree_name : Agree before before (name : Parse κ Name) name :=
  agree_of_still fun _ => rfl

theorem agree_reject (problem : Token → Problem) :
    Agree before before (reject problem : Parse κ Expression) (reject problem) :=
  agree_of_still fun _ => rfl

theorem agree_advance (hle : before ≤ after + 1) :
    Agree before after (advance : Parse κ Unit) advance :=
  fun _ hwithin => ⟨rfl, hwithin.advance hle⟩

theorem agree_optionalSemicolon :
    Agree before before (optionalSemicolon : Parse κ Unit) optionalSemicolon := by
  intro cursor hwithin
  refine ⟨rfl, ?_⟩
  rw [run_optionalSemicolon]
  show Cursor.Within before (if _ then Cursor.advance cursor else cursor)
  split
  · exact hwithin.advance (Nat.le_succ before)
  · exact hwithin

/-- What comes behind a token asked for has to agree one token further on. -/
theorem Agree.expecting {kind : Kind} {broken : Expression → α} {next next' : Parse κ α}
    (h : Agree middle after next next') (hmiddle : before ≤ middle + 1) (hafter : before ≤ after) :
    Agree before after (expecting kind broken next) (expecting kind broken next') := by
  intro cursor hwithin
  by_cases hk : (Cursor.peek cursor).kind = kind
  · rw [AgreeAt, run_expecting_of_eq broken next hk, run_expecting_of_eq broken next' hk]
    exact h (hwithin.advance hmiddle)
  · rw [AgreeAt, run_expecting_of_ne broken next hk, run_expecting_of_ne broken next' hk]
    exact ⟨rfl, hwithin.mono hafter⟩

/-- The token ahead is known. -/
theorem agreeAt_peek {f g : Token → Parse κ α} :
    AgreeAt cursor after (peek >>= f) (peek >>= g) ↔
      AgreeAt cursor after (f (Cursor.peek cursor)) (g (Cursor.peek cursor)) := by
  unfold AgreeAt peek
  rw [Traced.run_look_bind, Traced.run_look_bind]

/-- So is the token looked at. -/
theorem agreeAt_current {f g : Token → Parse κ α} :
    AgreeAt cursor after (current >>= f) (current >>= g) ↔
      AgreeAt cursor after (f (Cursor.current cursor)) (g (Cursor.current cursor)) := by
  unfold AgreeAt current
  rw [Traced.run_look_bind, Traced.run_look_bind]

/-! ## Openings -/

section forms

variable {ahead fuel fuel' : Nat}

theorem number_agrees : Agree ahead ahead (number : Parse κ Expression) number := by
  refine agree_current.bind fun token => ?_
  split
  · exact agree_pure _ (Nat.le_refl _)
  · exact agree_reject _

theorem unary_agrees {operand operand' : Parse κ Expression}
    (hoperand : Agree ahead ahead operand operand') :
    Agree (ahead + 1) (ahead + 1) (unary operand) (unary operand') := by
  refine agree_current.bind fun operator => ?_
  refine (agree_advance (Nat.le_refl _)).bind fun _ => ?_
  refine hoperand.bind fun value => ?_
  exact agree_pure _ (Nat.le_succ _)

theorem group_agrees {inner inner' : Parse κ Expression} (hinner : Agree ahead ahead inner inner') :
    Agree (ahead + 1) (ahead + 1) (group inner) (group inner') := by
  refine (agree_advance (Nat.le_refl _)).bind fun _ => ?_
  refine hinner.bind fun value => ?_
  exact (agree_pure _ (Nat.le_succ _)).expecting (Nat.le_succ _) (Nat.le_succ _)

theorem conditional_agrees {condition condition' : Parse κ Expression}
    {block block' : Parse κ Block} (hcondition : Agree ahead ahead condition condition')
    (hblock : Agree ahead ahead block block') :
    Agree (ahead + 1) (ahead + 1) (conditional condition block)
      (conditional condition' block') := by
  refine agree_current.bind fun token => ?_
  refine Agree.expecting ?_ (Nat.le_refl (ahead + 1)) (Nat.le_refl _)
  refine (agree_advance (Nat.le_succ _)).bind fun _ => ?_
  refine hcondition.bind fun value => ?_
  refine Agree.expecting ?_ (Nat.le_succ ahead) (Nat.le_succ _)
  refine Agree.expecting ?_ (Nat.le_succ ahead) (Nat.le_succ _)
  refine hblock.bind fun consequence => ?_
  refine agree_peek.bind fun next => ?_
  split
  · refine (agree_advance (Nat.le_succ _)).bind fun _ => ?_
    refine Agree.expecting ?_ (Nat.le_succ ahead) (Nat.le_succ _)
    refine hblock.bind fun alternative => ?_
    exact agree_pure _ (Nat.le_succ _)
  · exact agree_pure _ (Nat.le_succ _)

/-- A block, one token further on. -/
theorem block_agrees {statements statements' : Parse κ (List Statement)}
    (hle : before ≤ ahead + 1) (hafter : ahead ≤ before)
    (hstatements : Agree ahead ahead statements statements') :
    Agree before before (block statements) (block statements') := by
  refine agree_current.bind fun token => ?_
  refine (agree_advance hle).bind fun _ => ?_
  refine hstatements.bind fun body => ?_
  exact agree_pure _ hafter

variable [LawfulCursor κ]

theorem moreNames_agree (ahead : Nat) : ∀ {fuel fuel' : Nat}, ahead ≤ fuel → ahead ≤ fuel' →
    Agree ahead ahead (moreNames fuel : Parse κ (Except Expression (List Name)))
      (moreNames fuel') := by
  induction ahead with
  | zero =>
    intro fuel fuel' _ _ cursor hwithin
    have hne : (Cursor.peek cursor).kind ≠ .comma := by
      rw [← Cursor.nth_one, hwithin.kind_eq_eof (Nat.zero_le 1)]
      decide
    rw [AgreeAt, run_moreNames_of_ne hne, run_moreNames_of_ne hne]
    exact ⟨rfl, hwithin⟩
  | succ ahead ih =>
    intro fuel fuel' hfuel hfuel'
    obtain ⟨fuel, rfl⟩ := Nat.exists_eq_add_of_le' (show 1 ≤ fuel by omega)
    obtain ⟨fuel', rfl⟩ := Nat.exists_eq_add_of_le' (show 1 ≤ fuel' by omega)
    refine agree_peek.bind fun next => ?_
    split
    · refine (agree_advance (Nat.le_refl _)).bind fun _ => ?_
      refine Agree.expecting ?_ (Nat.le_succ ahead) (Nat.le_succ _)
      refine agree_name.bind fun name => ?_
      refine (ih (by omega) (by omega)).bind fun others => ?_
      exact agree_pure _ (Nat.le_succ _)
    · exact agree_pure _ (Nat.le_refl _)

theorem parameters_agree (hfuel : ahead ≤ fuel) (hfuel' : ahead ≤ fuel') :
    Agree ahead ahead (parameters fuel : Parse κ (Except Expression (List Name)))
      (parameters fuel') := by
  refine agree_peek.bind fun next => ?_
  split
  · refine (agree_advance (Nat.le_succ _)).bind fun _ => ?_
    exact agree_pure _ (Nat.le_refl _)
  · refine Agree.expecting ?_ (Nat.le_succ ahead) (Nat.le_refl _)
    refine agree_name.bind fun first => ?_
    refine (moreNames_agree ahead hfuel hfuel').bind fun others => ?_
    cases others with
    | error broken => exact agree_pure _ (Nat.le_refl _)
    | ok rest => exact (agree_pure _ (Nat.le_refl _)).expecting (Nat.le_succ _) (Nat.le_refl _)

theorem function_agrees (hfuel : ahead ≤ fuel) (hfuel' : ahead ≤ fuel')
    {block block' : Parse κ Block} (hblock : Agree ahead ahead block block') :
    Agree (ahead + 1) (ahead + 1) (function (parameters fuel) block)
      (function (parameters fuel') block') := by
  refine agree_current.bind fun token => ?_
  refine Agree.expecting ?_ (Nat.le_refl (ahead + 1)) (Nat.le_refl _)
  refine (parameters_agree hfuel hfuel').bind fun names => ?_
  cases names with
  | error broken => exact agree_pure _ (Nat.le_succ _)
  | ok names =>
    refine Agree.expecting ?_ (Nat.le_succ ahead) (Nat.le_succ _)
    refine hblock.bind fun body => ?_
    exact agree_pure _ (Nat.le_succ _)

/-- A token opens a form for both or for none, and then the forms agree. -/
theorem opening?_agrees (hfuel : ahead ≤ fuel) (hfuel' : ahead ≤ fuel')
    {expression expression' : Precedence → Parse κ Expression} {block block' : Parse κ Block}
    (hexpression : ∀ floor, Agree ahead ahead (expression floor) (expression' floor))
    (hblock : Agree ahead ahead block block') (kind : Kind) :
    opening? expression (parameters fuel) block kind = none ∧
        opening? expression' (parameters fuel') block' kind = none ∨
      ∃ opening opening',
        opening? expression (parameters fuel) block kind = some opening ∧
        opening? expression' (parameters fuel') block' kind = some opening' ∧
        Agree (ahead + 1) (ahead + 1) opening opening' := by
  cases kind with
  | identifier =>
    exact .inr ⟨_, _, rfl, rfl, agree_name.bind fun _ => agree_pure _ (Nat.le_refl _)⟩
  | number => exact .inr ⟨_, _, rfl, rfl, number_agrees⟩
  | trueWord | falseWord =>
    exact .inr ⟨_, _, rfl, rfl, agree_current.bind fun _ => agree_pure _ (Nat.le_refl _)⟩
  | bang | minus => exact .inr ⟨_, _, rfl, rfl, unary_agrees (hexpression _)⟩
  | leftParen => exact .inr ⟨_, _, rfl, rfl, group_agrees (hexpression _)⟩
  | ifWord => exact .inr ⟨_, _, rfl, rfl, conditional_agrees (hexpression _) hblock⟩
  | funWord => exact .inr ⟨_, _, rfl, rfl, function_agrees hfuel hfuel' hblock⟩
  | _ => exact .inl ⟨rfl, rfl⟩

/-! ## Continuations -/

omit [LawfulCursor κ] in
theorem arguments_agree {expression expression' : Parse κ Expression}
    {more more' : Parse κ (List Expression)}
    (hexpression : Agree ahead ahead expression expression')
    (hmore : Agree ahead ahead more more') :
    Agree (ahead + 1) (ahead + 1) (arguments expression more) (arguments expression' more') := by
  refine agree_peek.bind fun next => ?_
  split
  · refine (agree_advance (Nat.le_refl _)).bind fun _ => ?_
    exact agree_pure _ (Nat.le_succ _)
  · refine (agree_advance (Nat.le_refl _)).bind fun _ => ?_
    refine hexpression.bind fun first => ?_
    refine hmore.bind fun rest => ?_
    exact (agree_pure _ (Nat.le_succ _)).expecting (Nat.le_succ _) (Nat.le_succ _)

omit [LawfulCursor κ] in
theorem continuation_agrees {expression expression' : Precedence → Parse κ Expression}
    {more more' : Parse κ (List Expression)}
    (hexpression : ∀ floor, Agree ahead ahead (expression floor) (expression' floor))
    (hmore : Agree ahead ahead more more') (kind : Kind) (left : Expression) :
    Agree (ahead + 1) (ahead + 1) (continuation expression more kind left)
      (continuation expression' more' kind left) := by
  unfold continuation
  split
  · refine agree_current.bind fun token => ?_
    refine (arguments_agree (hexpression _) hmore).bind fun result => ?_
    cases result with
    | error _ | ok _ => exact agree_pure _ (Nat.le_refl _)
  · refine agree_current.bind fun operator => ?_
    refine (agree_advance (Nat.le_refl _)).bind fun _ => ?_
    refine (hexpression _).bind fun right => ?_
    exact agree_pure _ (Nat.le_succ _)

/-! ## Statements -/

section statements

variable {expression expression' : Parse κ Expression}
  (hexpression : Agree ahead ahead expression expression')

include hexpression

omit [LawfulCursor κ] in
theorem declaration_agrees :
    Agree ahead ahead (declaration expression) (declaration expression') := by
  refine agree_current.bind fun token => ?_
  refine Agree.expecting ?_ (Nat.le_succ ahead) (Nat.le_refl _)
  refine agree_name.bind fun declared => ?_
  refine Agree.expecting ?_ (Nat.le_succ ahead) (Nat.le_refl _)
  refine (agree_advance (Nat.le_succ _)).bind fun _ => ?_
  refine hexpression.bind fun value => ?_
  refine agree_optionalSemicolon.bind fun _ => ?_
  exact agree_pure _ (Nat.le_refl _)

omit [LawfulCursor κ] in
theorem returning_agrees : Agree ahead ahead (returning expression) (returning expression') := by
  refine agree_current.bind fun token => agree_peek.bind fun next => ?_
  split
  · refine agree_optionalSemicolon.bind fun _ => ?_
    exact agree_pure _ (Nat.le_refl _)
  · refine (agree_advance (Nat.le_succ _)).bind fun _ => ?_
    refine hexpression.bind fun value => ?_
    refine agree_optionalSemicolon.bind fun _ => ?_
    exact agree_pure _ (Nat.le_refl _)

omit [LawfulCursor κ] in
theorem statement_agrees : Agree ahead ahead (statement expression) (statement expression') := by
  refine agree_current.bind fun token => ?_
  refine (agree_of_still fun _ => rfl).bind fun position => ?_
  refine (agree_of_still fun _ => rfl).bind fun _ => ?_
  split
  · exact declaration_agrees hexpression
  · exact declaration_agrees hexpression
  · refine (returning_agrees hexpression).bind fun value => ?_
    exact agree_pure _ (Nat.le_refl _)
  · refine Agree.bind ?_ fun value => agree_pure _ (Nat.le_refl _)
    refine agree_current.bind fun token => ?_
    refine hexpression.bind fun value => ?_
    refine agree_optionalSemicolon.bind fun _ => ?_
    exact agree_pure _ (Nat.le_refl _)

omit [LawfulCursor κ] in
/-- A statement and then the others, which start one token further on. -/
theorem body_agrees {others others' : Parse κ (List Statement)} (hle : ahead ≤ middle + 1)
    (hothers : Agree middle after others others') :
    Agree ahead after
      (do
        let first ← statement expression
        advance
        return first.toList ++ (← others))
      (do
        let first ← statement expression'
        advance
        return first.toList ++ (← others')) := by
  refine (statement_agrees hexpression).bind fun first => ?_
  refine (agree_advance hle).bind fun _ => ?_
  refine hothers.bind fun rest => ?_
  exact agree_pure _ (Nat.le_refl _)

end statements

/-! ## The forms tied together -/

/-- The recursive parsers agree with so many tokens ahead, if both have enough fuel. -/
structure Agreement (κ : Type) [Cursor κ] (ahead : Nat) : Prop where
  /-- Expressions. -/
  expression {fuel fuel' : Nat} (floor : Precedence) : ahead + 1 ≤ fuel → ahead + 1 ≤ fuel' →
    Agree ahead ahead (expression fuel floor : Parse κ Expression) (expression fuel' floor)
  /-- What an expression goes on with. -/
  climb {fuel fuel' : Nat} (floor : Precedence) (left : Expression) : ahead ≤ fuel → ahead ≤ fuel' →
    Agree ahead ahead (climb fuel floor left : Parse κ Expression) (climb fuel' floor left)
  /-- Further arguments. -/
  moreArguments {fuel fuel' : Nat} : ahead ≤ fuel → ahead ≤ fuel' →
    Agree ahead ahead (moreArguments fuel : Parse κ (List Expression)) (moreArguments fuel')
  /-- Statements of a block. -/
  blockStatements {fuel fuel' : Nat} : ahead + 2 ≤ fuel → ahead + 2 ≤ fuel' →
    Agree ahead ahead (blockStatements fuel : Parse κ (List Statement)) (blockStatements fuel')

omit [LawfulCursor κ] in
/-- At the end of input a block is empty, and an expression is none. -/
theorem blockStatements_agree_zero (fuel fuel' : Nat) :
    Agree 0 0 (blockStatements (fuel + 1) : Parse κ (List Statement))
      (blockStatements (fuel' + 1)) := by
  intro cursor hwithin
  have heof : (Cursor.current cursor).kind = .eof := hwithin.kind_eq_eof (Nat.zero_le 0)
  rw [blockStatements, blockStatements, agreeAt_current, heof]
  exact ((agree_reject _).bind fun _ => agree_pure _ (Nat.le_refl 0)) hwithin

omit [LawfulCursor κ] in
theorem expression_agrees_zero (fuel fuel' : Nat) (floor : Precedence) :
    Agree 0 0 (expression (fuel + 1) floor : Parse κ Expression)
      (expression (fuel' + 1) floor) := by
  rw [expression, expression]
  refine (agree_of_still fun _ => rfl).bind fun position => ?_
  refine (agree_of_still fun _ => rfl).bind fun _ => ?_
  intro cursor hwithin
  have heof : (Cursor.current cursor).kind = .eof := hwithin.kind_eq_eof (Nat.zero_le 0)
  rw [agreeAt_current, heof]
  exact agree_reject _ hwithin

section agreement

variable (hnearer : ∀ nearer < ahead, Agreement κ nearer)

include hnearer

omit [LawfulCursor κ] in
/-- The statements of a block start behind its brace. -/
theorem blocks_agree (hfuel : ahead + 1 ≤ fuel) (hfuel' : ahead + 1 ≤ fuel') :
    Agree ahead ahead (block (blockStatements fuel) : Parse κ Block)
      (block (blockStatements fuel')) := by
  obtain ⟨fuel, rfl⟩ := Nat.exists_eq_add_of_le' (show 1 ≤ fuel by omega)
  obtain ⟨fuel', rfl⟩ := Nat.exists_eq_add_of_le' (show 1 ≤ fuel' by omega)
  cases ahead with
  | zero =>
    exact block_agrees (Nat.zero_le 1) (Nat.le_refl 0) (blockStatements_agree_zero fuel fuel')
  | succ ahead =>
    refine block_agrees (Nat.le_refl _) (Nat.le_succ _) ?_
    exact (hnearer ahead (Nat.lt_succ_self _)).blockStatements (by omega) (by omega)

theorem climb_agrees (floor : Precedence) (left : Expression) (hfuel : ahead ≤ fuel)
    (hfuel' : ahead ≤ fuel') :
    Agree ahead ahead (climb fuel floor left : Parse κ Expression) (climb fuel' floor left) := by
  intro cursor hwithin
  by_cases htighter : floor < (Cursor.peek cursor).kind.precedence
  · have hlt := hwithin.one_lt fun heof => by
      rw [heof] at htighter
      exact absurd htighter (Nat.not_lt_zero _)
    obtain ⟨ahead, rfl⟩ := Nat.exists_eq_add_of_le' (show 2 ≤ ahead from hlt)
    obtain ⟨fuel, rfl⟩ := Nat.exists_eq_add_of_le' (show 1 ≤ fuel by omega)
    obtain ⟨fuel', rfl⟩ := Nat.exists_eq_add_of_le' (show 1 ≤ fuel' by omega)
    rw [climb, climb, agreeAt_peek, if_pos htighter, if_pos htighter]
    -- the operator is one token further on, and what follows it another one
    have hparts := hnearer ahead (by omega)
    refine AgreeAt.bind (agree_advance (Nat.le_refl _) hwithin) fun _ => ?_
    refine (continuation_agrees (fun floor => hparts.expression floor (by omega) (by omega))
      (hparts.moreArguments (by omega) (by omega)) _ left).bind fun folded => ?_
    refine Agree.mono ?_ (Nat.le_refl _) (Nat.le_succ _)
    exact (hnearer (ahead + 1) (by omega)).climb floor folded (by omega) (by omega)
  · rw [AgreeAt, run_climb_of_not_lt left htighter, run_climb_of_not_lt left htighter]
    exact ⟨rfl, hwithin⟩

theorem moreArguments_agree (hfuel : ahead ≤ fuel) (hfuel' : ahead ≤ fuel') :
    Agree ahead ahead (moreArguments fuel : Parse κ (List Expression)) (moreArguments fuel') := by
  intro cursor hwithin
  by_cases hcomma : (Cursor.peek cursor).kind = .comma
  · have hlt := hwithin.one_lt (by rw [hcomma]; decide)
    obtain ⟨ahead, rfl⟩ := Nat.exists_eq_add_of_le' (show 2 ≤ ahead from hlt)
    obtain ⟨fuel, rfl⟩ := Nat.exists_eq_add_of_le' (show 1 ≤ fuel by omega)
    obtain ⟨fuel', rfl⟩ := Nat.exists_eq_add_of_le' (show 1 ≤ fuel' by omega)
    rw [moreArguments, moreArguments, agreeAt_peek, if_pos hcomma, if_pos hcomma]
    have hparts := hnearer ahead (by omega)
    refine AgreeAt.bind (agree_advance (Nat.le_refl _) hwithin) fun _ => ?_
    refine (agree_advance (Nat.le_refl _)).bind fun _ => ?_
    refine (hparts.expression _ (by omega) (by omega)).bind fun next => ?_
    refine (hparts.moreArguments (by omega) (by omega)).bind fun others => ?_
    exact agree_pure _ (by omega)
  · rw [AgreeAt, run_moreArguments_of_ne hcomma, run_moreArguments_of_ne hcomma]
    exact ⟨rfl, hwithin⟩

theorem expression_agrees (floor : Precedence) (hfuel : ahead + 1 ≤ fuel)
    (hfuel' : ahead + 1 ≤ fuel') :
    Agree ahead ahead (expression fuel floor : Parse κ Expression) (expression fuel' floor) := by
  obtain ⟨fuel, rfl⟩ := Nat.exists_eq_add_of_le' (show 1 ≤ fuel by omega)
  obtain ⟨fuel', rfl⟩ := Nat.exists_eq_add_of_le' (show 1 ≤ fuel' by omega)
  have hclimb (left : Expression) := climb_agrees hnearer floor left
    (show ahead ≤ fuel by omega) (show ahead ≤ fuel' by omega)
  cases ahead with
  | zero => exact expression_agrees_zero fuel fuel' floor
  | succ ahead =>
    have hexpression (floor : Precedence) :
        Agree ahead ahead (expression fuel floor : Parse κ Expression) (expression fuel' floor) :=
      (hnearer ahead (Nat.lt_succ_self _)).expression floor (by omega) (by omega)
    have hblock : Agree ahead ahead (block (blockStatements fuel) : Parse κ Block)
        (block (blockStatements fuel')) :=
      blocks_agree (fun nearer hlt => hnearer nearer (by omega)) (by omega) (by omega)
    have hopening := opening?_agrees (show ahead ≤ fuel by omega) (show ahead ≤ fuel' by omega)
      hexpression hblock
    rw [expression, expression]
    refine (agree_of_still fun _ => rfl).bind fun position => ?_
    refine (agree_of_still fun _ => rfl).bind fun _ => ?_
    refine agree_current.bind fun token => ?_
    rcases hopening token.kind with ⟨hnone, hnone'⟩ | ⟨opening, opening', hsome, hsome', hagree⟩
    · rw [hnone, hnone']
      exact agree_reject _
    · rw [hsome, hsome']
      exact hagree.bind hclimb

theorem blockStatements_agree (hfuel : ahead + 2 ≤ fuel) (hfuel' : ahead + 2 ≤ fuel') :
    Agree ahead ahead (blockStatements fuel : Parse κ (List Statement))
      (blockStatements fuel') := by
  obtain ⟨fuel, rfl⟩ := Nat.exists_eq_add_of_le' (show 1 ≤ fuel by omega)
  obtain ⟨fuel', rfl⟩ := Nat.exists_eq_add_of_le' (show 1 ≤ fuel' by omega)
  cases ahead with
  | zero => exact blockStatements_agree_zero fuel fuel'
  | succ ahead =>
    have hothers := (hnearer ahead (Nat.lt_succ_self _)).blockStatements
      (show ahead + 2 ≤ fuel by omega) (show ahead + 2 ≤ fuel' by omega)
    rw [blockStatements, blockStatements]
    refine agree_current.bind fun token => ?_
    split
    · exact agree_pure _ (Nat.le_refl _)
    · exact (agree_reject _).bind fun _ => agree_pure _ (Nat.le_refl _)
    · refine body_agrees (expression_agrees hnearer _ (by omega) (by omega)) (Nat.le_refl _) ?_
      exact hothers.mono (Nat.le_refl _) (Nat.le_succ _)

end agreement

/-- The recursive parsers agree, however many tokens are ahead. -/
theorem agreement (ahead : Nat) : Agreement κ ahead := by
  induction ahead using Nat.strong_induction_on with
  | _ ahead ih =>
    exact ⟨expression_agrees ih, climb_agrees ih, moreArguments_agree ih, blockStatements_agree ih⟩

/-- All statements are parsed alike, and up to the end of input. -/
theorem statements_agree (ahead : Nat) :
    ∀ {fuel fuel' : Nat}, ahead + 2 ≤ fuel → ahead + 2 ≤ fuel' →
      Agree ahead 0 (statements fuel : Parse κ (List Statement)) (statements fuel') := by
  induction ahead with
  | zero =>
    intro fuel fuel' hfuel hfuel' cursor hwithin
    obtain ⟨fuel, rfl⟩ := Nat.exists_eq_add_of_le' (show 1 ≤ fuel by omega)
    obtain ⟨fuel', rfl⟩ := Nat.exists_eq_add_of_le' (show 1 ≤ fuel' by omega)
    have heof : (Cursor.current cursor).kind = .eof := hwithin.kind_eq_eof (Nat.zero_le 0)
    rw [statements, statements, agreeAt_current, if_pos heof, if_pos heof]
    exact agree_pure _ (Nat.le_refl 0) hwithin
  | succ ahead ih =>
    intro fuel fuel' hfuel hfuel' cursor hwithin
    obtain ⟨fuel, rfl⟩ := Nat.exists_eq_add_of_le' (show 1 ≤ fuel by omega)
    obtain ⟨fuel', rfl⟩ := Nat.exists_eq_add_of_le' (show 1 ≤ fuel' by omega)
    rw [statements, statements, agreeAt_current]
    by_cases heof : (Cursor.current cursor).kind = .eof
    · rw [if_pos heof, if_pos heof]
      exact agree_pure _ (Nat.le_refl 0) (hwithin.of_eof heof)
    · rw [if_neg heof, if_neg heof]
      refine body_agrees ?_ (Nat.le_refl _) (ih (by omega) (by omega)) hwithin
      exact (agreement (ahead + 1)).expression .lowest (by omega) (by omega)

end forms

end Parse

end SayLang
