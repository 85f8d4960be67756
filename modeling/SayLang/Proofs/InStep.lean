import SayLang.Parser.Climb

/-!
# Parsers in step

A parser knows of the tokens only what its cursor shows. A `Coupling` pairs cursors, perhaps of two
kinds, that show the same tokens at the same position, and that are paired again when both are moved
on. Parsers that start from paired cursors go in step then, whatever the text: they answer the same
and record the same, and they stop at paired cursors.

> `InStep.bind`: a sequence goes in step when its parts do.
> `Parse.statements_inStep`: all statements up to the end of input, with the same fuel.
> `Parse.program_inStep`: a program, where paired cursors expect the same number of tokens.

There is one lemma for each form of the grammar, and the recursion is on the fuel. Nothing is asked
of the fuel but that it is the same on both sides.
-/

namespace SayLang

variable {κ κ' : Type} [Cursor κ] [Cursor κ']

/-- Cursors that show the same and go on to do so. -/
structure Coupling (κ κ' : Type) [Cursor κ] [Cursor κ'] where
  /-- Which cursors are paired. -/
  Paired : κ → κ' → Prop
  /-- They look at the same token. -/
  current_eq {cursor : κ} {cursor' : κ'} :
    Paired cursor cursor' → Cursor.current cursor' = Cursor.current cursor
  /-- They have the same token ahead. -/
  peek_eq {cursor : κ} {cursor' : κ'} :
    Paired cursor cursor' → Cursor.peek cursor' = Cursor.peek cursor
  /-- They are at the same position. -/
  position_eq {cursor : κ} {cursor' : κ'} :
    Paired cursor cursor' → Cursor.position cursor' = Cursor.position cursor
  /-- They are paired again when they are moved on. -/
  advance {cursor : κ} {cursor' : κ'} :
    Paired cursor cursor' → Paired (Cursor.advance cursor) (Cursor.advance cursor')

namespace Parse

variable {α β : Type} {coupling : Coupling κ κ'}

/-- From these cursors both pieces answer the same and record the same, and they stop at paired
cursors. -/
structure InStepAt (coupling : Coupling κ κ') (p : Parse κ α) (p' : Parse κ' α) (cursor : κ)
    (cursor' : κ') : Prop where
  /-- They answer the same. -/
  value_eq : (p'.run cursor').value = (p.run cursor).value
  /-- They stop at paired cursors. -/
  paired : coupling.Paired (p.run cursor).state (p'.run cursor').state
  /-- They record the same. -/
  events_eq : (p'.run cursor').events = (p.run cursor).events

/-- So they do from all paired cursors. -/
def InStep (coupling : Coupling κ κ') (p : Parse κ α) (p' : Parse κ' α) : Prop :=
  ∀ ⦃cursor : κ⦄ ⦃cursor' : κ'⦄, coupling.Paired cursor cursor' →
    InStepAt coupling p p' cursor cursor'

/-! ## Steps -/

theorem pure_inStep (a : α) : InStep coupling (pure a) (pure a) :=
  fun _ _ hpaired => ⟨rfl, hpaired, rfl⟩

/-- A sequence goes in step when its parts do. -/
theorem InStep.bind {p : Parse κ α} {p' : Parse κ' α} {f : α → Parse κ β} {f' : α → Parse κ' β}
    (hp : InStep coupling p p') (hf : ∀ a, InStep coupling (f a) (f' a)) :
    InStep coupling (p >>= f) (p' >>= f') := by
  intro cursor cursor' hpaired
  have hfirst := hp hpaired
  have hsecond := hf (p.run cursor).value hfirst.paired
  refine ⟨?_, ?_, ?_⟩
  · rw [Traced.run_bind, Traced.run_bind, hfirst.value_eq]
    exact hsecond.value_eq
  · rw [Traced.run_bind, Traced.run_bind, hfirst.value_eq]
    exact hsecond.paired
  · rw [Traced.run_bind, Traced.run_bind, hfirst.value_eq, hfirst.events_eq]
    exact congrArg _ hsecond.events_eq

theorem record_inStep (event : Event) :
    InStep coupling (Traced.record event) (Traced.record event) :=
  fun _ _ hpaired => ⟨rfl, hpaired, rfl⟩

/-- What is seen in paired cursors has to be the same. -/
theorem look_inStep {view : κ → α} {view' : κ' → α}
    (h : ∀ {cursor cursor'}, coupling.Paired cursor cursor' → view' cursor' = view cursor) :
    InStep coupling (Traced.look view) (Traced.look view') :=
  fun _ _ hpaired => ⟨h hpaired, hpaired, rfl⟩

theorem current_inStep : InStep coupling current current := look_inStep coupling.current_eq

theorem peek_inStep : InStep coupling peek peek := look_inStep coupling.peek_eq

theorem position_inStep : InStep coupling position position := look_inStep coupling.position_eq

theorem advance_inStep : InStep coupling advance advance :=
  fun _ _ hpaired => ⟨rfl, coupling.advance hpaired, rfl⟩

theorem name_inStep : InStep coupling name name :=
  current_inStep.bind fun _ => pure_inStep _

theorem report_inStep (position : Nat) (token : Token) (problem : Problem) :
    InStep coupling (report position token problem) (report position token problem) :=
  (record_inStep _).bind fun _ => pure_inStep _

/-- The same token is rejected at the same position. -/
theorem reject_inStep (problem : Token → Problem) :
    InStep coupling (reject problem) (reject problem) := by
  unfold reject
  apply current_inStep.bind
  intro token
  exact position_inStep.bind fun _ => report_inStep _ _ _

/-- A token asked for is there on both sides or on none. -/
theorem InStep.expecting {kind : Kind} {broken : Expression → α} {next : Parse κ α}
    {next' : Parse κ' α} (hnext : InStep coupling next next') :
    InStep coupling (expecting kind broken next) (expecting kind broken next') := by
  unfold Parse.expecting
  apply peek_inStep.bind
  intro found
  split
  · exact advance_inStep.bind fun _ => hnext
  · apply position_inStep.bind
    intro position
    exact (report_inStep _ _ _).bind fun _ => pure_inStep _

theorem optionalSemicolon_inStep :
    InStep coupling optionalSemicolon optionalSemicolon := by
  unfold optionalSemicolon
  apply peek_inStep.bind
  intro next
  split
  · exact advance_inStep
  · exact pure_inStep _

/-! ## Openings -/

theorem number_inStep : InStep coupling number number := by
  unfold number
  apply current_inStep.bind
  intro token
  split
  · exact pure_inStep _
  · exact reject_inStep _

theorem unary_inStep {operand : Parse κ Expression} {operand' : Parse κ' Expression}
    (hoperand : InStep coupling operand operand') :
    InStep coupling (unary operand) (unary operand') := by
  unfold unary
  apply current_inStep.bind
  intro operator
  apply advance_inStep.bind
  intro _
  exact hoperand.bind fun _ => pure_inStep _

theorem group_inStep {inner : Parse κ Expression} {inner' : Parse κ' Expression}
    (hinner : InStep coupling inner inner') : InStep coupling (group inner) (group inner') := by
  unfold group
  apply advance_inStep.bind
  intro _
  apply hinner.bind
  intro e
  exact (pure_inStep e).expecting

theorem block_inStep {statements : Parse κ (List Statement)}
    {statements' : Parse κ' (List Statement)}
    (hstatements : InStep coupling statements statements') :
    InStep coupling (block statements) (block statements') := by
  unfold block
  apply current_inStep.bind
  intro token
  apply advance_inStep.bind
  intro _
  exact hstatements.bind fun _ => pure_inStep _

theorem conditional_inStep {condition : Parse κ Expression} {condition' : Parse κ' Expression}
    {block : Parse κ Block} {block' : Parse κ' Block}
    (hcondition : InStep coupling condition condition') (hblock : InStep coupling block block') :
    InStep coupling (conditional condition block) (conditional condition' block') := by
  unfold conditional
  apply current_inStep.bind
  intro token
  apply InStep.expecting
  apply advance_inStep.bind
  intro _
  apply hcondition.bind
  intro e
  apply InStep.expecting
  apply InStep.expecting
  apply hblock.bind
  intro consequence
  apply peek_inStep.bind
  intro next
  split
  · apply advance_inStep.bind
    intro _
    exact (hblock.bind fun _ => pure_inStep _).expecting
  · exact pure_inStep _

theorem moreNames_inStep (fuel : Nat) : InStep coupling (moreNames fuel) (moreNames fuel) := by
  induction fuel with
  | zero => exact pure_inStep _
  | succ fuel ih =>
    unfold moreNames
    apply peek_inStep.bind
    intro next
    split
    · apply advance_inStep.bind
      intro _
      apply InStep.expecting
      apply name_inStep.bind
      intro name
      exact ih.bind fun _ => pure_inStep _
    · exact pure_inStep _

theorem parameters_inStep (fuel : Nat) :
    InStep coupling (parameters fuel) (parameters fuel) := by
  unfold parameters
  apply peek_inStep.bind
  intro next
  split
  · exact advance_inStep.bind fun _ => pure_inStep _
  · apply InStep.expecting
    apply name_inStep.bind
    intro first
    apply (moreNames_inStep fuel).bind
    intro others
    cases others with
    | error broken => exact pure_inStep _
    | ok rest => exact (pure_inStep _).expecting

theorem function_inStep (fuel : Nat) {block : Parse κ Block} {block' : Parse κ' Block}
    (hblock : InStep coupling block block') :
    InStep coupling (function (parameters fuel) block) (function (parameters fuel) block') := by
  unfold function
  apply current_inStep.bind
  intro token
  apply InStep.expecting
  apply (parameters_inStep fuel).bind
  intro names
  cases names with
  | error broken => exact pure_inStep _
  | ok names => exact (hblock.bind fun _ => pure_inStep _).expecting

/-- A token opens a form on both sides or on none. -/
theorem opening?_inStep (fuel : Nat) {expression : Precedence → Parse κ Expression}
    {expression' : Precedence → Parse κ' Expression} {block : Parse κ Block}
    {block' : Parse κ' Block}
    (hexpression : ∀ floor, InStep coupling (expression floor) (expression' floor))
    (hblock : InStep coupling block block') (kind : Kind) :
    Option.Rel (InStep coupling) (opening? expression (parameters fuel) block kind)
      (opening? expression' (parameters fuel) block' kind) := by
  cases kind with
  | identifier => exact .some (name_inStep.bind fun _ => pure_inStep _)
  | number => exact .some number_inStep
  | trueWord | falseWord => exact .some (current_inStep.bind fun _ => pure_inStep _)
  | bang | minus => exact .some (unary_inStep (hexpression _))
  | leftParen => exact .some (group_inStep (hexpression _))
  | ifWord => exact .some (conditional_inStep (hexpression _) hblock)
  | funWord => exact .some (function_inStep fuel hblock)
  | _ => exact .none

/-! ## Continuations -/

theorem arguments_inStep {expression : Parse κ Expression} {expression' : Parse κ' Expression}
    {more : Parse κ (List Expression)} {more' : Parse κ' (List Expression)}
    (hexpression : InStep coupling expression expression') (hmore : InStep coupling more more') :
    InStep coupling (arguments expression more) (arguments expression' more') := by
  unfold arguments
  apply peek_inStep.bind
  intro next
  split
  · exact advance_inStep.bind fun _ => pure_inStep _
  · apply advance_inStep.bind
    intro _
    apply hexpression.bind
    intro first
    apply hmore.bind
    intro rest
    exact (pure_inStep _).expecting

theorem continuation_inStep {expression : Precedence → Parse κ Expression}
    {expression' : Precedence → Parse κ' Expression} {more : Parse κ (List Expression)}
    {more' : Parse κ' (List Expression)}
    (hexpression : ∀ floor, InStep coupling (expression floor) (expression' floor))
    (hmore : InStep coupling more more') (kind : Kind) (left : Expression) :
    InStep coupling (continuation expression more kind left)
      (continuation expression' more' kind left) := by
  unfold continuation
  split
  · unfold call
    apply current_inStep.bind
    intro token
    apply (arguments_inStep (hexpression _) hmore).bind
    intro result
    cases result with
    | error _ | ok _ => exact pure_inStep _
  · unfold binary
    apply current_inStep.bind
    intro operator
    apply advance_inStep.bind
    intro _
    exact (hexpression _).bind fun _ => pure_inStep _

/-! ## Statements -/

section statements

variable {expression : Parse κ Expression} {expression' : Parse κ' Expression}
variable (hexpression : InStep coupling expression expression')

include hexpression

theorem declaration_inStep :
    InStep coupling (declaration expression) (declaration expression') := by
  unfold declaration
  apply current_inStep.bind
  intro token
  apply InStep.expecting
  apply name_inStep.bind
  intro declared
  apply InStep.expecting
  apply advance_inStep.bind
  intro _
  apply hexpression.bind
  intro value
  exact optionalSemicolon_inStep.bind fun _ => pure_inStep _

theorem returning_inStep : InStep coupling (returning expression) (returning expression') := by
  unfold returning
  apply current_inStep.bind
  intro token
  apply peek_inStep.bind
  intro next
  split
  · exact optionalSemicolon_inStep.bind fun _ => pure_inStep _
  · apply advance_inStep.bind
    intro _
    apply hexpression.bind
    intro value
    exact optionalSemicolon_inStep.bind fun _ => pure_inStep _

theorem expressionStatement_inStep :
    InStep coupling (expressionStatement expression) (expressionStatement expression') := by
  unfold expressionStatement
  apply current_inStep.bind
  intro token
  apply hexpression.bind
  intro value
  exact optionalSemicolon_inStep.bind fun _ => pure_inStep _

theorem statement_inStep : InStep coupling (statement expression) (statement expression') := by
  unfold statement
  apply current_inStep.bind
  intro token
  apply position_inStep.bind
  intro position
  apply (record_inStep _).bind
  intro _
  split
  · exact declaration_inStep hexpression
  · exact declaration_inStep hexpression
  · exact (returning_inStep hexpression).bind fun _ => pure_inStep _
  · exact (expressionStatement_inStep hexpression).bind fun _ => pure_inStep _

/-- A statement and then the others. -/
theorem body_inStep {others : Parse κ (List Statement)} {others' : Parse κ' (List Statement)}
    (hothers : InStep coupling others others') :
    InStep coupling
      (do
        let first ← statement expression
        advance
        return first.toList ++ (← others))
      (do
        let first ← statement expression'
        advance
        return first.toList ++ (← others')) := by
  apply (statement_inStep hexpression).bind
  intro first
  apply advance_inStep.bind
  intro _
  exact hothers.bind fun _ => pure_inStep _

end statements

/-! ## The forms tied together -/

/-- The recursive parsers of one fuel go in step. -/
structure Marching (coupling : Coupling κ κ') (fuel : Nat) : Prop where
  /-- Expressions. -/
  expression (floor : Precedence) :
    InStep coupling (expression fuel floor) (expression fuel floor)
  /-- What an expression goes on with. -/
  climb (floor : Precedence) (left : Expression) :
    InStep coupling (climb fuel floor left) (climb fuel floor left)
  /-- Further arguments. -/
  moreArguments : InStep coupling (moreArguments fuel) (moreArguments fuel)
  /-- Statements of a block. -/
  blockStatements : InStep coupling (blockStatements fuel) (blockStatements fuel)

theorem marching_zero : Marching coupling 0 where
  expression _ := reject_inStep _
  climb _ _ := pure_inStep _
  moreArguments := pure_inStep _
  blockStatements := pure_inStep _

section succ

variable {fuel : Nat} (hmarching : Marching coupling fuel)

include hmarching

theorem expression_inStep (floor : Precedence) :
    InStep coupling (expression (fuel + 1) floor) (expression (fuel + 1) floor) := by
  unfold expression
  apply position_inStep.bind
  intro position
  apply (record_inStep _).bind
  intro _
  apply current_inStep.bind
  intro token
  have hopening := opening?_inStep fuel hmarching.expression
    (block_inStep hmarching.blockStatements) token.kind
  generalize (opening? _ _ _ token.kind : Option (Parse κ Expression)) = opening,
    (opening? _ _ _ token.kind : Option (Parse κ' Expression)) = opening' at hopening ⊢
  cases hopening with
  | none => exact reject_inStep _
  | some hopening => exact hopening.bind fun left => hmarching.climb floor left

theorem climb_inStep (floor : Precedence) (left : Expression) :
    InStep coupling (climb (fuel + 1) floor left) (climb (fuel + 1) floor left) := by
  unfold climb
  apply peek_inStep.bind
  intro next
  split
  · apply advance_inStep.bind
    intro _
    apply (continuation_inStep hmarching.expression hmarching.moreArguments next.kind left).bind
    intro folded
    exact hmarching.climb floor folded
  · exact pure_inStep _

theorem moreArguments_inStep :
    InStep coupling (moreArguments (fuel + 1)) (moreArguments (fuel + 1)) := by
  unfold moreArguments
  apply peek_inStep.bind
  intro next
  split
  · apply advance_inStep.bind
    intro _
    apply advance_inStep.bind
    intro _
    apply (hmarching.expression _).bind
    intro first
    exact hmarching.moreArguments.bind fun _ => pure_inStep _
  · exact pure_inStep _

theorem blockStatements_inStep :
    InStep coupling (blockStatements (fuel + 1)) (blockStatements (fuel + 1)) := by
  unfold blockStatements
  apply current_inStep.bind
  intro token
  split
  · exact pure_inStep _
  · exact (reject_inStep _).bind fun _ => pure_inStep _
  · exact body_inStep (hmarching.expression _) hmarching.blockStatements

end succ

/-- The recursive parsers go in step, whatever their fuel. -/
theorem marching (coupling : Coupling κ κ') (fuel : Nat) : Marching coupling fuel := by
  induction fuel with
  | zero => exact marching_zero
  | succ fuel ih =>
    exact ⟨expression_inStep ih, climb_inStep ih, moreArguments_inStep ih,
      blockStatements_inStep ih⟩

theorem statements_inStep (coupling : Coupling κ κ') (fuel : Nat) :
    InStep coupling (statements fuel) (statements fuel) := by
  induction fuel with
  | zero => exact pure_inStep _
  | succ fuel ih =>
    unfold statements
    apply current_inStep.bind
    intro token
    split
    · exact pure_inStep _
    · exact body_inStep ((marching coupling fuel).expression _) ih

/-- The fuel for a program is the same where the cursors expect the same number of tokens. -/
theorem program_inStep (hahead : ∀ {cursor cursor'}, coupling.Paired cursor cursor' →
    Cursor.ahead cursor' = Cursor.ahead cursor) : InStep coupling program program := by
  unfold program
  apply (look_inStep hahead).bind
  intro ahead
  exact (statements_inStep coupling _).bind fun _ => pure_inStep _

end Parse

end SayLang
