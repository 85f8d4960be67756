import SayLang.Proofs.SideBySide

/-!
# Parsing goes the same way over tokens relabelled

Every decision of the parser is about kinds of tokens and values of numbers. So two parsers that
stand abreast go the same way through every form of the grammar, also where the text is broken, and
also when they have different fuel, as long as both have enough.

> `Parse.statements_mirrors`: statements up to the end of input come out relabelled, and so do the
> diagnostics.

There is one lemma for each form. It takes for granted that the parsers of the parts go the same way
nearer to the end of input, and the recursion on the tokens ahead puts the forms together.
-/

namespace SayLang.Parse

variable {κ κ' : Type} [Cursor κ] [Cursor κ']
variable {α : Type} {r : Relabelling} {ahead : Nat} {cursor : κ} {cursor' : κ'}

/-- Both pieces go the same way wherever fewer tokens are ahead than the limit. -/
def MirrorsBelow (r : Relabelling) (limit : Nat) (map : α → α) (p : Parse κ α) (p' : Parse κ' α) :
    Prop :=
  ∀ {ahead : Nat} {cursor : κ} {cursor' : κ'}, ahead < limit → Abreast r ahead cursor cursor' →
    Mirrors r ahead map p p' cursor cursor'

/-- Both parsers of a block go the same way there. The brace that opens the block is not the end of
input, so something is ahead. -/
def MirrorsBlock (r : Relabelling) (limit : Nat) (p : Parse κ Block) (p' : Parse κ' Block) : Prop :=
  ∀ {ahead : Nat} {cursor : κ} {cursor' : κ'}, 0 < ahead → ahead < limit →
    Abreast r ahead cursor cursor' → Mirrors r ahead (Block.relabel r) p p' cursor cursor'

/-- What a list of parts or the broken one among them becomes. -/
def relabelResult (r : Relabelling) (map : α → α) : Except Expression α → Except Expression α
  | .error broken => .error (broken.relabel r)
  | .ok value => .ok (map value)

/-! ## Openings -/

theorem identifier_mirrors (h : Abreast r ahead cursor cursor')
    (hk : (Cursor.current cursor).kind = .identifier) :
    Mirrors r ahead (Expression.relabel r) identifier identifier cursor cursor' := by
  simp only [identifier, mirrors_name]
  refine mirrors_pure h ?_
  rw [h.current_eq, Expression.relabel, Name.relabel_ofToken r hk]

theorem number_mirrors (h : Abreast r ahead cursor cursor')
    (hk : (Cursor.current cursor).kind = .number) :
    Mirrors r ahead (Expression.relabel r) number number cursor cursor' := by
  simp only [number, mirrors_current, h.current_eq, r.value_eq hk]
  cases hvalue : Integer.ofDigits? (Cursor.current cursor).literal with
  | none => exact mirrors_reject h (by rw [r.digits_eq hk hvalue])
  | some value => exact mirrors_pure h rfl

theorem boolean_mirrors (h : Abreast r ahead cursor cursor') :
    Mirrors r ahead (Expression.relabel r) boolean boolean cursor cursor' := by
  simp only [boolean, mirrors_current, h.current_eq, r.kind_eq]
  exact mirrors_pure h rfl

theorem unary_mirrors {operand : Parse κ Expression} {operand' : Parse κ' Expression}
    (hoperand : MirrorsBelow r ahead (Expression.relabel r) operand operand')
    (h : Abreast r ahead cursor cursor') (hne : (Cursor.current cursor).kind ≠ .eof) :
    Mirrors r ahead (Expression.relabel r) (unary operand) (unary operand') cursor cursor' := by
  have hpos := h.pos hne
  simp only [unary, mirrors_current, mirrors_advance, h.current_eq]
  refine (hoperand (by omega) h.advance).bind fun e _ _ hafter => ?_
  exact mirrors_pure (hafter.mono (Nat.sub_le _ _)) rfl

variable [LawfulCursor κ] [LawfulCursor κ']

theorem group_mirrors {inner : Parse κ Expression} {inner' : Parse κ' Expression}
    (hinner : MirrorsBelow r ahead (Expression.relabel r) inner inner')
    (h : Abreast r ahead cursor cursor') (hne : (Cursor.current cursor).kind ≠ .eof) :
    Mirrors r ahead (Expression.relabel r) (group inner) (group inner') cursor cursor' := by
  have hpos := h.pos hne
  simp only [group, mirrors_advance]
  refine (hinner (by omega) h.advance).bind fun e _ _ hafter => ?_
  refine mirrors_expecting hafter (by omega) (by decide) (fun _ => rfl) fun _ _ hright => ?_
  exact mirrors_pure (hright.mono (by omega)) rfl

theorem conditional_mirrors {condition : Parse κ Expression} {condition' : Parse κ' Expression}
    {block : Parse κ Block} {block' : Parse κ' Block}
    (hcondition : MirrorsBelow r ahead (Expression.relabel r) condition condition')
    (hblock : MirrorsBlock r ahead block block') (h : Abreast r ahead cursor cursor') :
    Mirrors r ahead (Expression.relabel r) (conditional condition block)
      (conditional condition' block') cursor cursor' := by
  simp only [conditional, mirrors_current, h.current_eq]
  refine mirrors_expecting h (by omega) (by decide) (fun _ => rfl) fun _ hlt₁ hleft => ?_
  simp only [mirrors_advance]
  refine (hcondition (by omega) hleft.advance).bind fun e _ _ hafter₁ => ?_
  refine mirrors_expecting hafter₁ (by omega) (by decide) (fun _ => rfl) fun _ hlt₂ hright => ?_
  refine mirrors_expecting hright (by omega) (by decide) (fun _ => rfl) fun _ hlt₃ hbrace => ?_
  refine (hblock (by omega) (by omega) hbrace).bind fun consequence after _ hafter₂ => ?_
  rw [mirrors_peek, hafter₂.kind_peek]
  by_cases helse : (Cursor.peek after).kind = .elseWord
  · simp only [if_pos helse, mirrors_advance]
    refine mirrors_expecting hafter₂.advance (by omega) (by decide) (fun _ => rfl)
      fun _ hlt₄ hbrace' => ?_
    refine (hblock (by omega) (by omega) hbrace').bind fun alternative _ _ hafter₃ => ?_
    exact mirrors_pure (hafter₃.mono (by omega)) rfl
  · simp only [if_neg helse]
    exact mirrors_pure (hafter₂.mono (by omega)) rfl

/-! ## Parameters -/

theorem moreNames_mirrors (fuel : Nat) :
    ∀ {fuel' ahead : Nat} {cursor : κ} {cursor' : κ'}, ahead ≤ fuel → ahead ≤ fuel' →
      Abreast r ahead cursor cursor' →
      Mirrors r ahead (relabelResult r (List.map (Name.relabel r))) (moreNames fuel)
        (moreNames fuel') cursor cursor' := by
  induction fuel with
  | zero =>
    intro fuel' ahead cursor cursor' hfuel _ h
    -- nothing is ahead, so there is no comma either
    have hne : (Cursor.peek cursor).kind ≠ .comma := fun hcomma => by
      have hlt := h.one_lt (by rw [hcomma]; decide)
      omega
    have hne' : (Cursor.peek cursor').kind ≠ .comma := by rwa [h.kind_peek]
    exact mirrors_of_run_eq (run_moreNames_of_ne hne) (run_moreNames_of_ne hne') h rfl
  | succ fuel ih =>
    intro fuel' ahead cursor cursor' hfuel hfuel' h
    by_cases hcomma : (Cursor.peek cursor).kind = .comma
    · have hlt := h.one_lt (by rw [hcomma]; decide)
      obtain ⟨fuel', rfl⟩ := Nat.exists_eq_add_of_le' (show 1 ≤ fuel' by omega)
      rw [moreNames, moreNames, mirrors_peek, h.kind_peek, if_pos hcomma, if_pos hcomma,
        mirrors_advance]
      refine mirrors_expecting h.advance (by omega) (by decide) (fun _ => rfl)
        fun hname hlt hadvance => ?_
      rw [mirrors_name]
      refine (ih (by omega) (by omega) hadvance).bind fun others _ _ hafter => ?_
      refine mirrors_pure (hafter.mono (by omega)) ?_
      rw [hadvance.current_eq,
        ← Name.relabel_ofToken r (by rw [LawfulCursor.current_advance, hname])]
      cases others <;> rfl
    · have hcomma' : (Cursor.peek cursor').kind ≠ .comma := by rwa [h.kind_peek]
      exact mirrors_of_run_eq (run_moreNames_of_ne hcomma) (run_moreNames_of_ne hcomma') h rfl

theorem parameters_mirrors {fuel fuel' : Nat} (hfuel : ahead ≤ fuel) (hfuel' : ahead ≤ fuel')
    (h : Abreast r ahead cursor cursor') :
    Mirrors r ahead (relabelResult r (List.map (Name.relabel r))) (parameters fuel)
      (parameters fuel') cursor cursor' := by
  rw [parameters, parameters, mirrors_peek, h.kind_peek]
  by_cases hright : (Cursor.peek cursor).kind = .rightParen
  · simp only [if_pos hright, mirrors_advance]
    exact mirrors_pure (h.advance.mono (Nat.sub_le _ _)) rfl
  · simp only [if_neg hright]
    refine mirrors_expecting h (by omega) (by decide) (fun _ => rfl) fun hname _ hadvance => ?_
    have hname' : (Cursor.current (Cursor.advance cursor)).kind = .identifier := by
      rw [LawfulCursor.current_advance, hname]
    rw [mirrors_name, hadvance.current_eq, ← Name.relabel_ofToken r hname']
    refine (moreNames_mirrors fuel (by omega) (by omega) hadvance).bind fun others _ _ hafter => ?_
    cases others with
    | error broken => exact mirrors_pure (hafter.mono (Nat.sub_le _ _)) rfl
    | ok names =>
      refine mirrors_expecting hafter (by omega) (by decide) (fun _ => rfl) fun _ _ hclose => ?_
      exact mirrors_pure (hclose.mono (by omega)) rfl

theorem function_mirrors {fuel fuel' : Nat} {block : Parse κ Block} {block' : Parse κ' Block}
    (hfuel : ahead ≤ fuel) (hfuel' : ahead ≤ fuel') (hblock : MirrorsBlock r ahead block block')
    (h : Abreast r ahead cursor cursor') :
    Mirrors r ahead (Expression.relabel r) (function (parameters fuel) block)
      (function (parameters fuel') block') cursor cursor' := by
  simp only [function, mirrors_current, h.current_eq]
  refine mirrors_expecting h (by omega) (by decide) (fun _ => rfl) fun _ hlt₁ hleft => ?_
  refine (parameters_mirrors (by omega) (by omega) hleft).bind fun names _ _ hafter₁ => ?_
  cases names with
  | error broken => exact mirrors_pure (hafter₁.mono (Nat.sub_le _ _)) rfl
  | ok names =>
    refine mirrors_expecting hafter₁ (by omega) (by decide) (fun _ => rfl) fun _ hlt₂ hbrace => ?_
    refine (hblock (by omega) (by omega) hbrace).bind fun body _ _ hafter₂ => ?_
    exact mirrors_pure (hafter₂.mono (by omega)) rfl

/-- A token opens the same form in both runs, or none in either. -/
theorem opening?_mirrors {fuel fuel' : Nat} {expression : Precedence → Parse κ Expression}
    {expression' : Precedence → Parse κ' Expression} {block : Parse κ Block}
    {block' : Parse κ' Block} (hfuel : ahead ≤ fuel) (hfuel' : ahead ≤ fuel')
    (hexpression : ∀ floor,
      MirrorsBelow r ahead (Expression.relabel r) (expression floor) (expression' floor))
    (hblock : MirrorsBlock r ahead block block') (h : Abreast r ahead cursor cursor') :
    (opening? expression (parameters fuel) block (Cursor.current cursor).kind = none ∧
      opening? expression' (parameters fuel') block' (Cursor.current cursor).kind = none) ∨
    ∃ opening opening',
      opening? expression (parameters fuel) block (Cursor.current cursor).kind = some opening ∧
      opening? expression' (parameters fuel') block' (Cursor.current cursor).kind =
        some opening' ∧
      Mirrors r ahead (Expression.relabel r) opening opening' cursor cursor' := by
  cases hk : (Cursor.current cursor).kind with
  | identifier => exact .inr ⟨_, _, rfl, rfl, identifier_mirrors h hk⟩
  | number => exact .inr ⟨_, _, rfl, rfl, number_mirrors h hk⟩
  | trueWord | falseWord => exact .inr ⟨_, _, rfl, rfl, boolean_mirrors h⟩
  | bang | minus =>
    exact .inr ⟨_, _, rfl, rfl, unary_mirrors (hexpression _) h (by rw [hk]; decide)⟩
  | leftParen => exact .inr ⟨_, _, rfl, rfl, group_mirrors (hexpression _) h (by rw [hk]; decide)⟩
  | ifWord => exact .inr ⟨_, _, rfl, rfl, conditional_mirrors (hexpression _) hblock h⟩
  | funWord => exact .inr ⟨_, _, rfl, rfl, function_mirrors hfuel hfuel' hblock h⟩
  | _ => exact .inl ⟨rfl, rfl⟩

/-! ## Continuations -/

omit [LawfulCursor κ] [LawfulCursor κ'] in
theorem binary_mirrors {expression : Precedence → Parse κ Expression}
    {expression' : Precedence → Parse κ' Expression} (left : Expression)
    (hexpression : ∀ floor,
      MirrorsBelow r ahead (Expression.relabel r) (expression floor) (expression' floor))
    (h : Abreast r ahead cursor cursor') (hne : (Cursor.current cursor).kind ≠ .eof) :
    Mirrors r ahead (Expression.relabel r) (binary expression left)
      (binary expression' (left.relabel r)) cursor cursor' := by
  have hpos := h.pos hne
  simp only [binary, mirrors_current, mirrors_advance, h.current_eq, r.kind_eq]
  refine (hexpression _ (by omega) h.advance).bind fun right _ _ hafter => ?_
  exact mirrors_pure (hafter.mono (Nat.sub_le _ _)) rfl

theorem arguments_mirrors {expression : Parse κ Expression} {expression' : Parse κ' Expression}
    {more : Parse κ (List Expression)} {more' : Parse κ' (List Expression)}
    (hexpression : MirrorsBelow r ahead (Expression.relabel r) expression expression')
    (hmore : MirrorsBelow r ahead (Expression.relabelEach r) more more')
    (h : Abreast r ahead cursor cursor') (hpos : 0 < ahead) :
    Mirrors r ahead (relabelResult r (Expression.relabelEach r)) (arguments expression more)
      (arguments expression' more') cursor cursor' := by
  rw [arguments, arguments, mirrors_peek, h.kind_peek]
  by_cases hright : (Cursor.peek cursor).kind = .rightParen
  · simp only [if_pos hright, mirrors_advance]
    exact mirrors_pure (h.advance.mono (Nat.sub_le _ _)) rfl
  · simp only [if_neg hright, mirrors_advance]
    refine (hexpression (by omega) h.advance).bind fun first _ _ hafter₁ => ?_
    refine (hmore (by omega) hafter₁).bind fun others _ _ hafter₂ => ?_
    refine mirrors_expecting hafter₂ (by omega) (by decide) (fun _ => rfl) fun _ _ hclose => ?_
    exact mirrors_pure (hclose.mono (by omega)) rfl

theorem continuation_mirrors {expression : Precedence → Parse κ Expression}
    {expression' : Precedence → Parse κ' Expression} {more : Parse κ (List Expression)}
    {more' : Parse κ' (List Expression)} (left : Expression)
    (hexpression : ∀ floor,
      MirrorsBelow r ahead (Expression.relabel r) (expression floor) (expression' floor))
    (hmore : MirrorsBelow r ahead (Expression.relabelEach r) more more')
    (h : Abreast r ahead cursor cursor') (hne : (Cursor.current cursor).kind ≠ .eof) (kind : Kind) :
    Mirrors r ahead (Expression.relabel r) (continuation expression more kind left)
      (continuation expression' more' kind (left.relabel r)) cursor cursor' := by
  unfold continuation
  by_cases hk : kind = .leftParen
  · rw [if_pos hk, if_pos hk]
    simp only [call, mirrors_current, h.current_eq]
    refine (arguments_mirrors (hexpression _) hmore h (h.pos hne)).bind
      fun arguments _ _ hafter => ?_
    cases arguments with
    | error broken => exact mirrors_pure hafter rfl
    | ok arguments => exact mirrors_pure hafter rfl
  · rw [if_neg hk, if_neg hk]
    exact binary_mirrors left hexpression h hne

/-! ## Statements -/

section statements

variable {expression : Parse κ Expression} {expression' : Parse κ' Expression}

theorem declaration_mirrors
    (hexpression : MirrorsBelow r ahead (Expression.relabel r) expression expression')
    (h : Abreast r ahead cursor cursor') :
    Mirrors r ahead (Option.map (Statement.relabel r)) (declaration expression)
      (declaration expression') cursor cursor' := by
  simp only [declaration, mirrors_current, h.current_eq]
  refine mirrors_expecting h (by omega) (by decide) (fun _ => rfl) fun hname hlt₁ hadvance => ?_
  have hname' : (Cursor.current (Cursor.advance cursor)).kind = .identifier := by
    rw [LawfulCursor.current_advance, hname]
  rw [mirrors_name, hadvance.current_eq, ← Name.relabel_ofToken r hname']
  refine mirrors_expecting hadvance (by omega) (by decide) (fun _ => rfl) fun _ hlt₂ hsign => ?_
  rw [mirrors_advance]
  refine (hexpression (by omega) hsign.advance).bind fun value _ _ hafter₁ => ?_
  refine (mirrors_optionalSemicolon hafter₁).bind fun _ _ _ hafter₂ => ?_
  exact mirrors_pure (hafter₂.mono (by omega)) rfl

theorem returning_mirrors
    (hexpression : MirrorsBelow r ahead (Expression.relabel r) expression expression')
    (h : Abreast r ahead cursor cursor') (hne : (Cursor.current cursor).kind ≠ .eof) :
    Mirrors r ahead (Statement.relabel r) (returning expression) (returning expression') cursor
      cursor' := by
  have hpos := h.pos hne
  simp only [returning, mirrors_current, mirrors_peek, h.current_eq, h.kind_peek]
  split
  · refine (mirrors_optionalSemicolon h).bind fun _ _ _ hafter => ?_
    exact mirrors_pure hafter rfl
  · simp only [mirrors_advance]
    refine (hexpression (by omega) h.advance).bind fun value _ _ hafter₁ => ?_
    refine (mirrors_optionalSemicolon hafter₁).bind fun _ _ _ hafter₂ => ?_
    exact mirrors_pure (hafter₂.mono (Nat.sub_le _ _)) rfl

theorem expressionStatement_mirrors
    (hexpression : MirrorsBelow r (ahead + 1) (Expression.relabel r) expression expression')
    (h : Abreast r ahead cursor cursor') :
    Mirrors r ahead (Statement.relabel r) (expressionStatement expression)
      (expressionStatement expression') cursor cursor' := by
  simp only [expressionStatement, mirrors_current, h.current_eq]
  refine (hexpression (Nat.lt_succ_self _) h).bind fun value _ _ hafter₁ => ?_
  refine (mirrors_optionalSemicolon hafter₁).bind fun _ _ _ hafter₂ => ?_
  exact mirrors_pure hafter₂ rfl

theorem statement_mirrors
    (hexpression : MirrorsBelow r (ahead + 1) (Expression.relabel r) expression expression')
    (h : Abreast r ahead cursor cursor') :
    Mirrors r ahead (Option.map (Statement.relabel r)) (statement expression)
      (statement expression') cursor cursor' := by
  have hbelow : MirrorsBelow r ahead (Expression.relabel r) expression expression' :=
    fun hlt => hexpression (Nat.lt_succ_of_lt hlt)
  simp only [statement, mirrors_current, mirrors_position, h.current_eq, r.kind_eq]
  refine (mirrors_record rfl rfl).mpr ?_
  split
  next => exact declaration_mirrors hbelow h
  next => exact declaration_mirrors hbelow h
  next hk =>
    refine (returning_mirrors hbelow h (by rw [hk]; decide)).bind fun _ _ _ hafter => ?_
    exact mirrors_pure hafter rfl
  next =>
    refine (expressionStatement_mirrors hexpression h).bind fun _ _ _ hafter => ?_
    exact mirrors_pure hafter rfl

/-- A statement and then the others. -/
theorem body_mirrors {others : Parse κ (List Statement)} {others' : Parse κ' (List Statement)}
    (hexpression : MirrorsBelow r (ahead + 1) (Expression.relabel r) expression expression')
    (hothers : MirrorsBelow r ahead (Statement.relabelEach r) others others')
    (h : Abreast r ahead cursor cursor') (hne : (Cursor.current cursor).kind ≠ .eof) :
    Mirrors r ahead (Statement.relabelEach r)
      (do
        let first ← statement expression
        advance
        return first.toList ++ (← others))
      (do
        let first ← statement expression'
        advance
        return first.toList ++ (← others')) cursor cursor' := by
  have hpos := h.pos hne
  refine (statement_mirrors hexpression h).bind fun first _ _ hafter₁ => ?_
  rw [mirrors_advance]
  refine (hothers (by omega) hafter₁.advance).bind fun rest _ _ hafter₂ => ?_
  refine mirrors_pure (hafter₂.mono (Nat.sub_le _ _)) ?_
  rw [Statement.relabelEach_append]
  cases first <;> rfl

end statements

omit [LawfulCursor κ] [LawfulCursor κ'] in
theorem block_mirrors {limit : Nat} {statements : Parse κ (List Statement)}
    {statements' : Parse κ' (List Statement)}
    (hstatements : MirrorsBelow r (limit - 1) (Statement.relabelEach r) statements statements') :
    MirrorsBlock r limit (block statements) (block statements') := by
  intro ahead cursor cursor' hpos hlt h
  simp only [block, mirrors_current, mirrors_advance, h.current_eq]
  refine (hstatements (by omega) h.advance).bind fun body _ _ hafter => ?_
  exact mirrors_pure (hafter.mono (Nat.sub_le _ _)) rfl

/-! ## The forms tied together -/

/-- With so many tokens ahead, the parsers go the same way when their fuel is enough for these. -/
structure Alike (κ κ' : Type) [Cursor κ] [Cursor κ'] (r : Relabelling) (ahead : Nat) : Prop where
  /-- Expressions. -/
  expression {fuel fuel' : Nat} {cursor : κ} {cursor' : κ'} (floor : Precedence) :
    ahead + 1 ≤ fuel → ahead + 1 ≤ fuel' → Abreast r ahead cursor cursor' →
    Mirrors r ahead (Expression.relabel r) (expression fuel floor) (expression fuel' floor) cursor
      cursor'
  /-- What an expression goes on with. -/
  climb {fuel fuel' : Nat} {cursor : κ} {cursor' : κ'} (floor : Precedence) (left : Expression) :
    ahead ≤ fuel → ahead ≤ fuel' → Abreast r ahead cursor cursor' →
    Mirrors r ahead (Expression.relabel r) (climb fuel floor left)
      (climb fuel' floor (left.relabel r)) cursor cursor'
  /-- Further arguments. -/
  moreArguments {fuel fuel' : Nat} {cursor : κ} {cursor' : κ'} :
    ahead ≤ fuel → ahead ≤ fuel' → Abreast r ahead cursor cursor' →
    Mirrors r ahead (Expression.relabelEach r) (moreArguments fuel) (moreArguments fuel') cursor
      cursor'
  /-- Statements of a block. -/
  blockStatements {fuel fuel' : Nat} {cursor : κ} {cursor' : κ'} :
    ahead + 2 ≤ fuel → ahead + 2 ≤ fuel' → Abreast r ahead cursor cursor' →
    Mirrors r ahead (Statement.relabelEach r) (blockStatements fuel) (blockStatements fuel') cursor
      cursor'

section alike

variable {fuel fuel' : Nat} (halike : ∀ nearer < ahead, Alike κ κ' r nearer)

include halike

omit [LawfulCursor κ] [LawfulCursor κ'] in
theorem expression_below {limit : Nat} (hlimit : limit ≤ ahead) (hfuel : limit ≤ fuel)
    (hfuel' : limit ≤ fuel') (floor : Precedence) :
    MirrorsBelow r limit (Expression.relabel r) (expression fuel floor : Parse κ Expression)
      (expression fuel' floor : Parse κ' Expression) :=
  fun hlt => (halike _ (by omega)).expression floor (by omega) (by omega)

theorem climb_mirrors (floor : Precedence) (left : Expression) (hfuel : ahead ≤ fuel)
    (hfuel' : ahead ≤ fuel') (h : Abreast r ahead cursor cursor') :
    Mirrors r ahead (Expression.relabel r) (climb fuel floor left)
      (climb fuel' floor (left.relabel r)) cursor cursor' := by
  by_cases htighter : floor < (Cursor.peek cursor).kind.precedence
  · have hne : (Cursor.peek cursor).kind ≠ .eof := fun heof => by
      rw [heof] at htighter
      exact absurd htighter (Nat.not_lt_zero _)
    have hne' : (Cursor.current (Cursor.advance cursor)).kind ≠ .eof := by
      rwa [LawfulCursor.current_advance]
    have hlt := h.one_lt hne
    obtain ⟨fuel, rfl⟩ := Nat.exists_eq_add_of_le' (show 1 ≤ fuel by omega)
    obtain ⟨fuel', rfl⟩ := Nat.exists_eq_add_of_le' (show 1 ≤ fuel' by omega)
    rw [climb, climb, mirrors_peek, h.kind_peek, if_pos htighter, if_pos htighter, mirrors_advance]
    refine (continuation_mirrors left ?_ ?_ h.advance hne' _).bind fun folded _ _ hafter => ?_
    · exact expression_below halike (by omega) (by omega) (by omega)
    · exact fun hlt => (halike _ (by omega)).moreArguments (by omega) (by omega)
    · refine ((halike _ (by omega)).climb floor folded (by omega) (by omega) hafter).mono ?_
      exact Nat.sub_le _ _
  · have htighter' : ¬ floor < (Cursor.peek cursor').kind.precedence := by rwa [h.kind_peek]
    exact mirrors_of_run_eq (run_climb_of_not_lt left htighter) (run_climb_of_not_lt _ htighter') h
      rfl

theorem expression_mirrors (floor : Precedence) (hfuel : ahead + 1 ≤ fuel)
    (hfuel' : ahead + 1 ≤ fuel') (h : Abreast r ahead cursor cursor') :
    Mirrors r ahead (Expression.relabel r) (expression fuel floor) (expression fuel' floor) cursor
      cursor' := by
  obtain ⟨fuel, rfl⟩ := Nat.exists_eq_add_of_le' (show 1 ≤ fuel by omega)
  obtain ⟨fuel', rfl⟩ := Nat.exists_eq_add_of_le' (show 1 ≤ fuel' by omega)
  have hblock : MirrorsBlock r ahead (block (blockStatements fuel) : Parse κ Block)
      (block (blockStatements fuel') : Parse κ' Block) :=
    block_mirrors fun {nearer} _ _ hlt =>
      (halike nearer (by omega)).blockStatements (by omega) (by omega)
  have hfuel : ahead ≤ fuel := by omega
  have hfuel' : ahead ≤ fuel' := by omega
  have hopening := opening?_mirrors hfuel hfuel'
    (expression_below halike (Nat.le_refl ahead) hfuel hfuel') hblock h
  simp only [expression, mirrors_position]
  refine (mirrors_record rfl rfl).mpr ?_
  rw [mirrors_current, h.kind_current]
  rcases hopening with ⟨hnone, hnone'⟩ | ⟨opening, opening', hsome, hsome', hmirrors⟩
  · rw [hnone, hnone']
    exact mirrors_reject h (by rw [r.kind_eq])
  · rw [hsome, hsome']
    refine hmirrors.bind fun left _ _ hafter => ?_
    exact climb_mirrors halike floor left (by omega) (by omega) hafter

theorem moreArguments_mirrors (hfuel : ahead ≤ fuel) (hfuel' : ahead ≤ fuel')
    (h : Abreast r ahead cursor cursor') :
    Mirrors r ahead (Expression.relabelEach r) (moreArguments fuel) (moreArguments fuel') cursor
      cursor' := by
  by_cases hcomma : (Cursor.peek cursor).kind = .comma
  · have hlt := h.one_lt (by rw [hcomma]; decide)
    obtain ⟨fuel, rfl⟩ := Nat.exists_eq_add_of_le' (show 1 ≤ fuel by omega)
    obtain ⟨fuel', rfl⟩ := Nat.exists_eq_add_of_le' (show 1 ≤ fuel' by omega)
    rw [moreArguments, moreArguments, mirrors_peek, h.kind_peek, if_pos hcomma, if_pos hcomma,
      mirrors_advance, mirrors_advance]
    have hexpression := (halike (ahead - 1 - 1) (by omega)).expression .lowest
      (show _ ≤ fuel by omega) (show _ ≤ fuel' by omega) h.advance.advance
    refine hexpression.bind fun next _ _ hafter₁ => ?_
    refine ((halike _ (by omega)).moreArguments (by omega) (by omega) hafter₁).bind
      fun others _ _ hafter₂ => ?_
    exact mirrors_pure (hafter₂.mono (by omega)) rfl
  · have hcomma' : (Cursor.peek cursor').kind ≠ .comma := by rwa [h.kind_peek]
    exact mirrors_of_run_eq (run_moreArguments_of_ne hcomma) (run_moreArguments_of_ne hcomma') h
      rfl

/-- Expressions with as many tokens ahead, and with fewer. -/
theorem expression_upTo (hfuel : ahead + 1 ≤ fuel) (hfuel' : ahead + 1 ≤ fuel')
    (floor : Precedence) :
    MirrorsBelow r (ahead + 1) (Expression.relabel r) (expression fuel floor : Parse κ Expression)
      (expression fuel' floor : Parse κ' Expression) :=
  fun hlt => expression_mirrors (fun nearer hnearer => halike nearer (by omega)) floor (by omega)
    (by omega)

theorem blockStatements_mirrors (hfuel : ahead + 2 ≤ fuel) (hfuel' : ahead + 2 ≤ fuel')
    (h : Abreast r ahead cursor cursor') :
    Mirrors r ahead (Statement.relabelEach r) (blockStatements fuel) (blockStatements fuel') cursor
      cursor' := by
  obtain ⟨fuel, rfl⟩ := Nat.exists_eq_add_of_le' (show 1 ≤ fuel by omega)
  obtain ⟨fuel', rfl⟩ := Nat.exists_eq_add_of_le' (show 1 ≤ fuel' by omega)
  rw [blockStatements, blockStatements, mirrors_current, h.kind_current]
  split
  next => exact mirrors_pure h rfl
  next =>
    refine (mirrors_reject h (by rw [r.kind_eq])).bind fun _ _ _ hafter => ?_
    exact mirrors_pure hafter rfl
  next hne =>
    have hpos := h.pos hne
    refine body_mirrors (expression_upTo halike (by omega) (by omega) _) ?_ h hne
    exact fun hlt => (halike _ hlt).blockStatements (by omega) (by omega)

end alike

/-- The parsers go the same way however many tokens are ahead. -/
theorem alike (ahead : Nat) : Alike κ κ' r ahead := by
  induction ahead using Nat.strong_induction_on with
  | _ ahead ih =>
    exact ⟨expression_mirrors ih, climb_mirrors ih, moreArguments_mirrors ih,
      blockStatements_mirrors ih⟩

theorem statements_mirrors (fuel : Nat) :
    ∀ {fuel' ahead : Nat} {cursor : κ} {cursor' : κ'}, ahead + 2 ≤ fuel → ahead + 2 ≤ fuel' →
      Abreast r ahead cursor cursor' →
      Mirrors r ahead (Statement.relabelEach r) (statements fuel) (statements fuel') cursor
        cursor' := by
  induction fuel with
  | zero =>
    intro fuel' ahead cursor cursor' hfuel
    omega
  | succ fuel ih =>
    intro fuel' ahead cursor cursor' hfuel hfuel' h
    obtain ⟨fuel', rfl⟩ := Nat.exists_eq_add_of_le' (show 1 ≤ fuel' by omega)
    rw [statements, statements, mirrors_current, h.kind_current]
    by_cases heof : (Cursor.current cursor).kind = .eof
    · rw [if_pos heof, if_pos heof]
      exact mirrors_pure h rfl
    · rw [if_neg heof, if_neg heof]
      have hpos := h.pos heof
      refine body_mirrors ?_ (fun hlt => ih (by omega) (by omega)) h heof
      exact expression_upTo (fun nearer _ => alike nearer) (by omega) (by omega) _

end SayLang.Parse
