import SayLang.Parser.Climb
import SayLang.Syntax.Walk

/-!
# Books kept of a parse

What is recorded while parsing can be held against the tree that comes out: something is held of
each error node and of each statement, and the events of the run say how what is held may change. A
`Ledger` is such a rule. It has to allow that errors and statements are put down when they are met,
that a broken form takes its parts with it, and that what stands on the left is left alone.

> `Keeps.bind`: a sequence keeps the books that its parts keep, one after the other.
> `Ledger.parse_kept`: the parser keeps them, whatever they are.

There is one lemma for each form of the grammar, so a fact about events and trees that is such a
rule needs no walk through the parser of its own.
-/

namespace SayLang

/-- Does an error node take the place of an expression that has the problem? -/
def Problem.breaksExpression : Problem → Bool
  | noExpression _ | notAnInteger _ => true
  | unexpected expected _ =>
    expected = .leftParen || expected = .rightParen || expected = .leftBrace

/-- What is held of a tree, and how that may change while events happen. -/
structure Ledger (ι : Type) where
  /-- What is held of an error node. -/
  broken? : Token → String → Option ι
  /-- What is held of a statement. -/
  entered? : Token → Option ι
  /-- May what is held change like this while these events happen? -/
  Kept : List ι → List Event → List ι → Prop
  /-- Nothing happens. -/
  refl (held : List ι) : Kept held [] held
  /-- Some events happen and then some others. -/
  trans {before middle after : List ι} {events events' : List Event} :
    Kept before events middle → Kept middle events' after → Kept before (events ++ events') after
  /-- What is held on the left stays there. -/
  frame (held : List ι) {before after : List ι} {events : List Event} :
    Kept before events after → Kept (held ++ before) events (held ++ after)
  /-- Entering an expression changes nothing. -/
  expression (held : List ι) (position : Nat) : Kept held [.expression position] held
  /-- A statement is put down when it is entered. -/
  statement (position : Nat) (token : Token) :
    Kept [] [.statement position token] (entered? token).toList
  /-- A diagnostic may be put down in place of all that is held. -/
  broken (held : List ι) (position : Nat) (token : Token) (problem : Problem) :
    Kept held [.diagnostic position ⟨token.line, problem⟩] (broken? token problem.message).toList
  /-- A diagnostic that breaks no expression drops a statement and leaves nothing. -/
  dropped (opened : Option Token) (position line : Nat) {problem : Problem} :
    problem.breaksExpression = false →
    Kept (opened.bind entered?).toList [.diagnostic position ⟨line, problem⟩] []

namespace Ledger

variable {ι : Type} (ledger : Ledger ι)

/-! ## What is held of a tree -/

/-- What is held of a node: only of errors and of statements something may be. -/
def item? : Node → Option ι
  | .expression (.error token message) => ledger.broken? token message
  | .statement statement => ledger.entered? statement.token
  | _ => none

/-- What is held of an expression. -/
def ofExpression (e : Expression) : List ι := e.nodes.filterMap ledger.item?

/-- What is held of expressions. -/
def ofExpressions (es : List Expression) : List ι :=
  (Expression.nodesOfEach es).filterMap ledger.item?

/-- What is held of statements. -/
def ofStatements (statements : List Statement) : List ι :=
  (Statement.nodesOfEach statements).filterMap ledger.item?

/-- What is held of a block. -/
def ofBlock (block : Block) : List ι := block.nodes.filterMap ledger.item?

/-- What is held of a list of parts, or of what takes their place. -/
def ofResult {α : Type} (items : α → List ι) : Except Expression α → List ι
  | .error broken => ledger.ofExpression broken
  | .ok value => items value

section parts

variable (token operator : Token) (left right callee condition value : Expression)
variable (consequence alternative : Block) (es : List Expression)
variable (statements others : List Statement)

theorem ofExpression_error (message : String) :
    ledger.ofExpression (.error token message) = (ledger.broken? token message).toList := by
  show List.filterMap ledger.item? [_] = _
  rw [List.filterMap_cons, List.filterMap_nil, item?]
  cases ledger.broken? token message <;> rfl

theorem ofExpression_binary :
    ledger.ofExpression (.binary left operator right) =
      ledger.ofExpression left ++ ledger.ofExpression right :=
  List.filterMap_append

theorem ofExpression_ifThen :
    ledger.ofExpression (.ifThen token condition consequence) =
      ledger.ofExpression condition ++ ledger.ofBlock consequence :=
  List.filterMap_append

theorem ofExpression_ifElse :
    ledger.ofExpression (.ifElse token condition consequence alternative) =
      ledger.ofExpression condition ++ ledger.ofBlock consequence ++
        ledger.ofBlock alternative := by
  show List.filterMap ledger.item? (_ ++ _ ++ _) = _
  rw [List.filterMap_append, List.filterMap_append]
  rfl

theorem ofExpression_call :
    ledger.ofExpression (.call token callee es) =
      ledger.ofExpression callee ++ ledger.ofExpressions es :=
  List.filterMap_append

theorem ofExpressions_cons :
    ledger.ofExpressions (value :: es) = ledger.ofExpression value ++ ledger.ofExpressions es :=
  List.filterMap_append

theorem ofStatements_append :
    ledger.ofStatements (statements ++ others) =
      ledger.ofStatements statements ++ ledger.ofStatements others := by
  unfold ofStatements
  rw [Statement.nodesOfEach_append, List.filterMap_append]

/-- What is held of a statement on its own, and then what is held of its parts. -/
theorem ofStatements_singleton (statement : Statement) {parts : List Node}
    (h : statement.nodes = .statement statement :: parts) :
    ledger.ofStatements [statement] =
      (ledger.entered? statement.token).toList ++ parts.filterMap ledger.item? := by
  unfold ofStatements
  rw [Statement.nodesOfEach, Statement.nodesOfEach, List.append_nil, h, List.filterMap_cons, item?]
  cases ledger.entered? statement.token <;> rfl

end parts

end Ledger

namespace Parse

variable {ι κ α β : Type} {ledger : Ledger ι} {before : List ι} {items : α → List ι}

/-- Run from a cursor, the events of a piece of the parser let what was held before turn into what
is held of its answer. -/
def KeepsAt (ledger : Ledger ι) (before : List ι) (items : α → List ι) (p : Parse κ α)
    (cursor : κ) : Prop :=
  ledger.Kept before (p.run cursor).events (items (p.run cursor).value)

/-- So they do from wherever it is run. -/
def Keeps (ledger : Ledger ι) (before : List ι) (items : α → List ι) (p : Parse κ α) : Prop :=
  ∀ cursor : κ, KeepsAt ledger before items p cursor

/-! ## Steps -/

theorem pure_keeps {a : α} (h : items a = before) :
    Keeps ledger before items (pure a : Parse κ α) := by
  intro _
  show ledger.Kept before [] (items a)
  rw [h]
  exact ledger.refl before

/-- The second part goes on with what is held of the first one. -/
theorem Keeps.bind {items' : β → List ι} {p : Parse κ α} {f : α → Parse κ β}
    (hp : Keeps ledger before items p) (hf : ∀ value, Keeps ledger (items value) items' (f value)) :
    Keeps ledger before items' (p >>= f) := by
  intro cursor
  unfold KeepsAt
  rw [Traced.run_bind]
  exact ledger.trans (hp cursor) (hf _ _)

/-- What is held on the left stays there. -/
theorem Keeps.frame {p : Parse κ α} (h : Keeps ledger [] items p) (held : List ι) :
    Keeps ledger held (fun value => held ++ items value) p := by
  intro cursor
  have hframe := ledger.frame held (h cursor)
  rwa [List.append_nil] at hframe

/-- A piece that records nothing. -/
theorem keeps_of_silent {p : Parse κ α} (h : ∀ cursor, (p.run cursor).events = []) :
    Keeps ledger before (fun _ => before) p := by
  intro cursor
  unfold KeepsAt
  rw [h]
  exact ledger.refl before

theorem record_expression_keeps (position : Nat) :
    Keeps ledger before (fun _ => before) (Traced.record (.expression position) : Parse κ Unit) :=
  fun _ => ledger.expression before position

variable [Cursor κ]

theorem current_keeps : Keeps ledger before (fun _ => before) (current : Parse κ Token) :=
  keeps_of_silent fun _ => rfl

/-- What is done with the current token may depend on it. -/
theorem keepsAt_current_bind {f : Token → Parse κ α} {cursor : κ}
    (h : Keeps ledger before items (f (Cursor.current cursor))) :
    KeepsAt ledger before items (current >>= f) cursor := by
  unfold KeepsAt
  rw [current, Traced.run_look_bind]
  exact h cursor

theorem peek_keeps : Keeps ledger before (fun _ => before) (peek : Parse κ Token) :=
  keeps_of_silent fun _ => rfl

theorem position_keeps : Keeps ledger before (fun _ => before) (position : Parse κ Nat) :=
  keeps_of_silent fun _ => rfl

theorem advance_keeps : Keeps ledger before (fun _ => before) (advance : Parse κ Unit) :=
  keeps_of_silent fun _ => rfl

theorem name_keeps : Keeps ledger before (fun _ => before) (name : Parse κ Name) :=
  keeps_of_silent fun _ => rfl

theorem optionalSemicolon_keeps :
    Keeps ledger before (fun _ => before) (optionalSemicolon : Parse κ Unit) :=
  keeps_of_silent fun cursor => by rw [run_optionalSemicolon]

/-- The error node of what is rejected takes the place of all that is held. -/
theorem reject_keeps (problem : Token → Problem) :
    Keeps ledger before ledger.ofExpression (reject problem : Parse κ Expression) := by
  intro cursor
  unfold KeepsAt
  rw [run_reject, Ledger.ofExpression_error]
  exact ledger.broken before _ _ _

/-- Where nothing is held that error node may be dropped, if the problem breaks no expression. -/
theorem reject_drops {problem : Token → Problem}
    (h : ∀ token, (problem token).breaksExpression = false) :
    Keeps ledger [] (fun _ => []) (reject problem : Parse κ Expression) := by
  intro cursor
  unfold KeepsAt
  rw [run_reject]
  exact ledger.dropped none _ _ (h _)

/-- A token asked for is there, or the error node that says so takes the place of all that is
held. -/
theorem expecting_keeps {kind : Kind} {broken : Expression → α} {next : Parse κ α}
    (hbroken : ∀ e, items (broken e) = ledger.ofExpression e)
    (hnext : Keeps ledger before items next) :
    Keeps ledger before items (expecting kind broken next) := by
  intro cursor
  unfold KeepsAt
  by_cases hk : (Cursor.peek cursor).kind = kind
  · rw [run_expecting_of_eq broken next hk]
    exact hnext _
  · rw [run_expecting_of_ne broken next hk, hbroken, Ledger.ofExpression_error]
    exact ledger.broken before _ _ _

/-- A token whose absence breaks no expression is there, or the statement it belongs to is
dropped. -/
theorem expecting_drops {kind : Kind} {broken : Expression → α} {next : Parse κ α} {token : Token}
    (hkind : ∀ found, (Problem.unexpected kind found).breaksExpression = false)
    (hbroken : ∀ e, items (broken e) = [])
    (hnext : Keeps ledger (ledger.entered? token).toList items next) :
    Keeps ledger (ledger.entered? token).toList items (expecting kind broken next) := by
  intro cursor
  unfold KeepsAt
  by_cases hk : (Cursor.peek cursor).kind = kind
  · rw [run_expecting_of_eq broken next hk]
    exact hnext _
  · rw [run_expecting_of_ne broken next hk, hbroken]
    exact ledger.dropped (some token) _ _ (hkind _)

/-! ## Openings -/

theorem identifier_keeps : Keeps ledger [] ledger.ofExpression (identifier : Parse κ Expression) :=
  name_keeps.bind fun _ => pure_keeps rfl

theorem number_keeps : Keeps ledger [] ledger.ofExpression (number : Parse κ Expression) := by
  unfold number
  apply current_keeps.bind
  intro token
  split
  · exact pure_keeps rfl
  · exact reject_keeps _

theorem boolean_keeps : Keeps ledger [] ledger.ofExpression (boolean : Parse κ Expression) :=
  current_keeps.bind fun _ => pure_keeps rfl

theorem unary_keeps {operand : Parse κ Expression}
    (hoperand : Keeps ledger [] ledger.ofExpression operand) :
    Keeps ledger [] ledger.ofExpression (unary operand) := by
  unfold unary
  apply current_keeps.bind
  intro operator
  apply advance_keeps.bind
  intro _
  exact hoperand.bind fun _ => pure_keeps rfl

theorem group_keeps {inner : Parse κ Expression}
    (hinner : Keeps ledger [] ledger.ofExpression inner) :
    Keeps ledger [] ledger.ofExpression (group inner) := by
  unfold group
  apply advance_keeps.bind
  intro _
  apply hinner.bind
  intro e
  exact expecting_keeps (fun _ => rfl) (pure_keeps rfl)

theorem conditional_keeps {condition : Parse κ Expression} {block : Parse κ Block}
    (hcondition : Keeps ledger [] ledger.ofExpression condition)
    (hblock : Keeps ledger [] ledger.ofBlock block) :
    Keeps ledger [] ledger.ofExpression (conditional condition block) := by
  unfold conditional
  apply current_keeps.bind
  intro token
  refine expecting_keeps (fun _ => rfl) ?_
  apply advance_keeps.bind
  intro _
  apply hcondition.bind
  intro e
  refine expecting_keeps (fun _ => rfl) ?_
  refine expecting_keeps (fun _ => rfl) ?_
  -- the branches are read with what is held of the condition on the left
  apply (hblock.frame _).bind
  intro consequence
  apply peek_keeps.bind
  intro next
  split
  · apply advance_keeps.bind
    intro _
    refine expecting_keeps (fun _ => rfl) ?_
    apply (hblock.frame _).bind
    intro alternative
    exact pure_keeps (ledger.ofExpression_ifElse _ _ _ _)
  · exact pure_keeps (ledger.ofExpression_ifThen _ _ _)

theorem moreNames_keeps (fuel : Nat) :
    Keeps ledger [] (ledger.ofResult fun _ => []) (moreNames fuel : Parse κ _) := by
  induction fuel with
  | zero => exact pure_keeps rfl
  | succ fuel ih =>
    unfold moreNames
    apply peek_keeps.bind
    intro next
    split
    · apply advance_keeps.bind
      intro _
      refine expecting_keeps (fun _ => rfl) ?_
      apply name_keeps.bind
      intro name
      apply ih.bind
      intro others
      apply pure_keeps
      cases others <;> rfl
    · exact pure_keeps rfl

theorem parameters_keeps (fuel : Nat) :
    Keeps ledger [] (ledger.ofResult fun _ => []) (parameters fuel : Parse κ _) := by
  unfold parameters
  apply peek_keeps.bind
  intro next
  split
  · exact advance_keeps.bind fun _ => pure_keeps rfl
  · refine expecting_keeps (fun _ => rfl) ?_
    apply name_keeps.bind
    intro first
    apply (moreNames_keeps fuel).bind
    intro others
    cases others with
    | error broken => exact pure_keeps rfl
    | ok names => exact expecting_keeps (fun _ => rfl) (pure_keeps rfl)

theorem function_keeps (fuel : Nat) {block : Parse κ Block}
    (hblock : Keeps ledger [] ledger.ofBlock block) :
    Keeps ledger [] ledger.ofExpression (function (parameters fuel) block) := by
  unfold function
  apply current_keeps.bind
  intro token
  refine expecting_keeps (fun _ => rfl) ?_
  apply (parameters_keeps fuel).bind
  intro names
  cases names with
  | error broken => exact pure_keeps rfl
  | ok names =>
    refine expecting_keeps (fun _ => rfl) ?_
    exact hblock.bind fun _ => pure_keeps rfl

/-- Whatever form a token opens, if it opens one. -/
theorem opening?_keeps (fuel : Nat) {expression : Precedence → Parse κ Expression}
    {block : Parse κ Block}
    (hexpression : ∀ floor, Keeps ledger [] ledger.ofExpression (expression floor))
    (hblock : Keeps ledger [] ledger.ofBlock block) {kind : Kind} {opening : Parse κ Expression}
    (h : opening? expression (parameters fuel) block kind = some opening) :
    Keeps ledger [] ledger.ofExpression opening := by
  unfold opening? at h
  split at h <;> cases h
  · exact identifier_keeps
  · exact number_keeps
  · exact boolean_keeps
  · exact boolean_keeps
  · exact unary_keeps (hexpression _)
  · exact unary_keeps (hexpression _)
  · exact group_keeps (hexpression _)
  · exact conditional_keeps (hexpression _) hblock
  · exact function_keeps fuel hblock

/-! ## Continuations -/

/-- What is held of the callee stays until the last argument is read. -/
theorem arguments_keeps {expression : Parse κ Expression} {more : Parse κ (List Expression)}
    (hexpression : Keeps ledger [] ledger.ofExpression expression)
    (hmore : Keeps ledger [] ledger.ofExpressions more) (held : List ι) :
    Keeps ledger held (ledger.ofResult fun es => held ++ ledger.ofExpressions es)
      (arguments expression more) := by
  unfold arguments
  apply peek_keeps.bind
  intro next
  split
  · exact advance_keeps.bind fun _ => pure_keeps (List.append_nil held)
  · apply advance_keeps.bind
    intro _
    apply (hexpression.frame held).bind
    intro first
    apply (hmore.frame _).bind
    intro others
    refine expecting_keeps (fun _ => rfl) ?_
    apply pure_keeps
    show held ++ ledger.ofExpressions (first :: others) = _
    rw [Ledger.ofExpressions_cons, List.append_assoc]

theorem continuation_keeps {expression : Precedence → Parse κ Expression}
    {more : Parse κ (List Expression)}
    (hexpression : ∀ floor, Keeps ledger [] ledger.ofExpression (expression floor))
    (hmore : Keeps ledger [] ledger.ofExpressions more) (kind : Kind) (left : Expression) :
    Keeps ledger (ledger.ofExpression left) ledger.ofExpression
      (continuation expression more kind left) := by
  unfold continuation
  split
  · unfold call
    apply current_keeps.bind
    intro token
    apply (arguments_keeps (hexpression _) hmore _).bind
    intro result
    cases result with
    | error broken => exact pure_keeps rfl
    | ok es => exact pure_keeps (ledger.ofExpression_call _ _ _)
  · unfold binary
    apply current_keeps.bind
    intro operator
    apply advance_keeps.bind
    intro _
    apply ((hexpression _).frame _).bind
    intro right
    exact pure_keeps (ledger.ofExpression_binary _ _ _)

/-! ## Statements -/

section statements

variable {expression : Parse κ Expression}
variable (hexpression : Keeps ledger [] ledger.ofExpression expression) (cursor : κ)

include hexpression

/-- The token of a declaration is put down when it is entered, and taken back when there is no name
or no equals sign. -/
theorem declaration_keepsAt :
    KeepsAt ledger (ledger.entered? (Cursor.current cursor)).toList
      (fun s => ledger.ofStatements s.toList) (declaration expression) cursor := by
  unfold declaration
  apply keepsAt_current_bind
  refine expecting_drops (fun _ => rfl) (fun _ => rfl) ?_
  apply name_keeps.bind
  intro declared
  refine expecting_drops (fun _ => rfl) (fun _ => rfl) ?_
  apply advance_keeps.bind
  intro _
  apply (hexpression.frame _).bind
  intro value
  exact optionalSemicolon_keeps.bind fun _ =>
    pure_keeps (ledger.ofStatements_singleton _ rfl)

theorem returning_keepsAt :
    KeepsAt ledger (ledger.entered? (Cursor.current cursor)).toList
      (fun s => ledger.ofStatements [s]) (returning expression) cursor := by
  unfold returning
  apply keepsAt_current_bind
  apply peek_keeps.bind
  intro next
  split
  · refine optionalSemicolon_keeps.bind fun _ => pure_keeps ?_
    exact (ledger.ofStatements_singleton _ rfl).trans (List.append_nil _)
  · apply advance_keeps.bind
    intro _
    apply (hexpression.frame _).bind
    intro value
    exact optionalSemicolon_keeps.bind fun _ =>
      pure_keeps (ledger.ofStatements_singleton _ rfl)

theorem expressionStatement_keepsAt :
    KeepsAt ledger (ledger.entered? (Cursor.current cursor)).toList
      (fun s => ledger.ofStatements [s]) (expressionStatement expression) cursor := by
  unfold expressionStatement
  apply keepsAt_current_bind
  apply (hexpression.frame _).bind
  intro value
  exact optionalSemicolon_keeps.bind fun _ =>
    pure_keeps (ledger.ofStatements_singleton _ rfl)

theorem statement_keeps :
    Keeps ledger [] (fun s => ledger.ofStatements s.toList) (statement expression) := by
  intro cursor
  have hentered := ledger.statement (Cursor.position cursor) (Cursor.current cursor)
  unfold KeepsAt
  simp only [statement, Traced.run_bind, run_current, run_position, Traced.run_record,
    List.nil_append]
  -- each form of statement is entered with its token put down
  refine ledger.trans hentered ?_
  split
  · exact declaration_keepsAt hexpression cursor
  · exact declaration_keepsAt hexpression cursor
  · rw [Traced.run_bind, Traced.run_pure, List.append_nil]
    exact returning_keepsAt hexpression cursor
  · rw [Traced.run_bind, Traced.run_pure, List.append_nil]
    exact expressionStatement_keepsAt hexpression cursor

/-- A statement and then the others. -/
theorem body_keeps {others : Parse κ (List Statement)}
    (hothers : Keeps ledger [] ledger.ofStatements others) :
    Keeps ledger [] ledger.ofStatements
      (do
        let first ← statement expression
        advance
        return first.toList ++ (← others)) := by
  apply (statement_keeps hexpression).bind
  intro first
  apply advance_keeps.bind
  intro _
  apply (hothers.frame _).bind
  intro rest
  exact pure_keeps (ledger.ofStatements_append _ _)

end statements

theorem block_keeps {statements : Parse κ (List Statement)}
    (hstatements : Keeps ledger [] ledger.ofStatements statements) :
    Keeps ledger [] ledger.ofBlock (block statements) := by
  unfold block
  apply current_keeps.bind
  intro token
  apply advance_keeps.bind
  intro _
  exact hstatements.bind fun _ => pure_keeps rfl

/-! ## The forms tied together -/

/-- The parsers of one fuel keep the books. -/
structure Keeping (κ : Type) [Cursor κ] (ledger : Ledger ι) (fuel : Nat) : Prop where
  /-- Expressions. -/
  expression (floor : Precedence) :
    Keeps ledger [] ledger.ofExpression (expression fuel floor : Parse κ Expression)
  /-- What an expression goes on with, with what is held of its left side. -/
  climb (floor : Precedence) (left : Expression) :
    Keeps ledger (ledger.ofExpression left) ledger.ofExpression
      (climb fuel floor left : Parse κ Expression)
  /-- Further arguments. -/
  moreArguments :
    Keeps ledger [] ledger.ofExpressions (moreArguments fuel : Parse κ (List Expression))
  /-- Statements of a block. -/
  blockStatements :
    Keeps ledger [] ledger.ofStatements (blockStatements fuel : Parse κ (List Statement))

theorem keeping_zero : Keeping κ ledger 0 where
  expression _ := reject_keeps _
  climb _ _ := pure_keeps rfl
  moreArguments := pure_keeps rfl
  blockStatements := pure_keeps rfl

section succ

variable {fuel : Nat} (hkeeping : Keeping κ ledger fuel)

include hkeeping

theorem expression_keeps (floor : Precedence) :
    Keeps ledger [] ledger.ofExpression (expression (fuel + 1) floor : Parse κ Expression) := by
  unfold expression
  apply position_keeps.bind
  intro position
  apply (record_expression_keeps position).bind
  intro _
  apply current_keeps.bind
  intro token
  split
  next => exact reject_keeps _
  next opening hopening =>
    apply (opening?_keeps fuel hkeeping.expression (block_keeps hkeeping.blockStatements)
      hopening).bind
    intro left
    exact hkeeping.climb floor left

theorem climb_keeps (floor : Precedence) (left : Expression) :
    Keeps ledger (ledger.ofExpression left) ledger.ofExpression
      (climb (fuel + 1) floor left : Parse κ Expression) := by
  unfold climb
  apply peek_keeps.bind
  intro next
  split
  · apply advance_keeps.bind
    intro _
    apply (continuation_keeps hkeeping.expression hkeeping.moreArguments next.kind left).bind
    intro folded
    exact hkeeping.climb floor folded
  · exact pure_keeps rfl

theorem moreArguments_keeps :
    Keeps ledger [] ledger.ofExpressions
      (moreArguments (fuel + 1) : Parse κ (List Expression)) := by
  unfold moreArguments
  apply peek_keeps.bind
  intro next
  split
  · apply advance_keeps.bind
    intro _
    apply advance_keeps.bind
    intro _
    apply (hkeeping.expression _).bind
    intro first
    apply (hkeeping.moreArguments.frame _).bind
    intro others
    exact pure_keeps (ledger.ofExpressions_cons _ _)
  · exact pure_keeps rfl

theorem blockStatements_keeps :
    Keeps ledger [] ledger.ofStatements
      (blockStatements (fuel + 1) : Parse κ (List Statement)) := by
  unfold blockStatements
  apply current_keeps.bind
  intro token
  split
  · exact pure_keeps rfl
  · -- the error node of a block that is never closed is not kept
    have hdrops : Keeps ledger [] (fun _ => [])
        (reject fun token => .unexpected .rightBrace token.kind : Parse κ Expression) :=
      reject_drops fun _ => rfl
    exact hdrops.bind fun _ => pure_keeps rfl
  · exact body_keeps (hkeeping.expression _) hkeeping.blockStatements

end succ

/-- The parsers keep the books, whatever their fuel. -/
theorem keeping (ledger : Ledger ι) (fuel : Nat) : Keeping κ ledger fuel := by
  induction fuel with
  | zero => exact keeping_zero
  | succ fuel ih =>
    exact ⟨expression_keeps ih, climb_keeps ih, moreArguments_keeps ih, blockStatements_keeps ih⟩

theorem statements_keeps (ledger : Ledger ι) (fuel : Nat) :
    Keeps ledger [] ledger.ofStatements (statements fuel : Parse κ (List Statement)) := by
  induction fuel with
  | zero => exact pure_keeps rfl
  | succ fuel ih =>
    unfold statements
    apply current_keeps.bind
    intro token
    split
    · exact pure_keeps rfl
    · exact body_keeps ((keeping ledger fuel).expression _) ih

end Parse

/-- What is held of the tree of a text agrees with the events of parsing it. -/
theorem Ledger.parse_kept {ι : Type} (ledger : Ledger ι) (source : String) :
    ledger.Kept [] (parse source).events
      ((parse source).program.nodes.filterMap ledger.item?) := by
  rw [Program.nodes, List.filterMap_cons_none rfl, parse, parseFrom, run_program]
  exact Parse.statements_keeps ledger (Cursor.ahead (Window.ofSource source) + 3)
    (Window.ofSource source)

end SayLang
