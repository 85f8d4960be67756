import SayLang.Proofs.SourceOrder
import SayLang.Proofs.Yield

/-!
# The tokens of a tree are tokens of its text

The parser makes up no tokens. Whatever holds of all tokens that a cursor comes to see holds of all
tokens in the tree that is parsed from it, also where the text is broken (`Draws`). So every token
of a parsed tree is one of the tokens of the text.

> `Draws.bind`: a sequence draws on what its parts draw on.
> `tokens_program_mem`: the tokens of a parsed tree are tokens of the text.
-/

namespace SayLang

/-! ## What is drawn on -/

/-- All tokens that the cursor comes to see are such. -/
def Cursor.Shows {κ : Type} [Cursor κ] (holds : Token → Prop) (cursor : κ) : Prop :=
  ∀ n, holds (Cursor.nth cursor n)

/-- All tokens of the expression are such. -/
def Expression.Holds (holds : Token → Prop) (e : Expression) : Prop :=
  ∀ token ∈ e.tokens, holds token

/-- All tokens of the expressions are. -/
def Expression.HoldsEach (holds : Token → Prop) (es : List Expression) : Prop :=
  ∀ token ∈ Expression.tokensOfEach es, holds token

/-- All tokens of the statement are. -/
def Statement.Holds (holds : Token → Prop) (s : Statement) : Prop := ∀ token ∈ s.tokens, holds token

/-- All tokens of the statements are. -/
def Statement.HoldsEach (holds : Token → Prop) (ss : List Statement) : Prop :=
  ∀ token ∈ Statement.tokensOfEach ss, holds token

/-- All tokens of the block are. -/
def Block.Holds (holds : Token → Prop) (body : Block) : Prop := ∀ token ∈ body.tokens, holds token

/-- The tokens of the names are. -/
def NamesHold (holds : Token → Prop) (names : List Name) : Prop := ∀ name ∈ names, holds name.token

/-- A list of parts is as it should be, or else the broken part is. -/
def ResultHolds {α : Type} (holds : Token → Prop) (good : α → Prop) : Except Expression α → Prop
  | .error broken => broken.Holds holds
  | .ok value => good value

theorem Statement.tokensOfEach_append (first second : List Statement) :
    tokensOfEach (first ++ second) = tokensOfEach first ++ tokensOfEach second := by
  induction first with
  | nil => simp [tokensOfEach]
  | cons _ _ ih => simp [tokensOfEach, ih]

theorem Statement.HoldsEach.append {holds : Token → Prop} {first second : List Statement}
    (h : Statement.HoldsEach holds first) (h' : Statement.HoldsEach holds second) :
    Statement.HoldsEach holds (first ++ second) := by
  rw [HoldsEach, tokensOfEach_append, List.forall_mem_append]
  exact ⟨h, h'⟩

section parts

variable {holds : Token → Prop} {token : Token} {name : Name} {names : List Name}
  {e left right condition callee : Expression} {es : List Expression}
  {body consequence alternative : Block} {s : Statement} {ss : List Statement}

theorem Expression.holds_identifier : (identifier name).Holds holds ↔ holds name.token := by
  rw [Holds, tokens, List.forall_mem_singleton]

theorem Expression.holds_number {value : Integer} :
    (number token value).Holds holds ↔ holds token := by
  rw [Holds, tokens, List.forall_mem_singleton]

theorem Expression.holds_boolean {value : Bool} :
    (boolean token value).Holds holds ↔ holds token := by
  rw [Holds, tokens, List.forall_mem_singleton]

theorem Expression.holds_error {message : String} :
    (error token message).Holds holds ↔ holds token := by
  rw [Holds, tokens, List.forall_mem_singleton]

theorem Expression.holds_unary :
    (unary token e).Holds holds ↔ holds token ∧ e.Holds holds := by
  rw [Holds, tokens, List.forall_mem_cons]
  rfl

theorem Expression.holds_binary : (binary left token right).Holds holds ↔
    left.Holds holds ∧ holds token ∧ right.Holds holds := by
  rw [Holds, tokens, List.forall_mem_append, List.forall_mem_cons]
  rfl

theorem Expression.holds_ifThen : (ifThen token condition consequence).Holds holds ↔
    holds token ∧ condition.Holds holds ∧ consequence.Holds holds := by
  rw [Holds, tokens, List.forall_mem_cons, List.forall_mem_append]
  rfl

theorem Expression.holds_ifElse :
    (ifElse token condition consequence alternative).Holds holds ↔
      holds token ∧ condition.Holds holds ∧ consequence.Holds holds ∧ alternative.Holds holds := by
  rw [Holds, tokens, List.forall_mem_cons, List.forall_mem_append, List.forall_mem_append]
  rfl

theorem Expression.holds_function : (function token names body).Holds holds ↔
    holds token ∧ NamesHold holds names ∧ body.Holds holds := by
  rw [Holds, tokens, List.forall_mem_cons, List.forall_mem_append, List.forall_mem_map]
  rfl

theorem Expression.holds_call : (call token callee es).Holds holds ↔
    callee.Holds holds ∧ Expression.HoldsEach holds es := by
  rw [Holds, tokens, List.forall_mem_append]
  rfl

theorem Expression.holdsEach_cons : Expression.HoldsEach holds (e :: es) ↔
    e.Holds holds ∧ Expression.HoldsEach holds es := by
  rw [HoldsEach, tokensOfEach, List.forall_mem_append]
  rfl

theorem Statement.holds_expression : (expression token e).Holds holds ↔ e.Holds holds := by
  rw [Holds, tokens]
  rfl

theorem Statement.holds_say : (say token name e).Holds holds ↔
    holds token ∧ holds name.token ∧ e.Holds holds := by
  rw [Holds, tokens, List.forall_mem_cons, List.forall_mem_cons]
  rfl

theorem Statement.holds_bareReturn : (bareReturn token).Holds holds ↔ holds token := by
  rw [Holds, tokens, List.forall_mem_singleton]

theorem Statement.holds_returnOf :
    (returnOf token e).Holds holds ↔ holds token ∧ e.Holds holds := by
  rw [Holds, tokens, List.forall_mem_cons]
  rfl

theorem Statement.holds_block : (block body).Holds holds ↔ body.Holds holds := by
  rw [Holds, tokens]
  rfl

theorem Statement.holdsEach_cons : Statement.HoldsEach holds (s :: ss) ↔
    s.Holds holds ∧ Statement.HoldsEach holds ss := by
  rw [HoldsEach, tokensOfEach, List.forall_mem_append]
  rfl

theorem Statement.holdsEach_some :
    Statement.HoldsEach holds (some s).toList ↔ s.Holds holds := by
  rw [Option.toList_some, holdsEach_cons]
  exact and_iff_left (List.forall_mem_nil _)

theorem Block.holds_mk :
    (Block.mk token ss).Holds holds ↔ holds token ∧ Statement.HoldsEach holds ss := by
  rw [Holds, tokens, List.forall_mem_cons]
  rfl

end parts

namespace Parse

variable {κ α β : Type} [Cursor κ] {holds : Token → Prop} {good : α → Prop}

/-- Where a cursor shows nothing but such tokens, what comes out is as it should be, and the cursor
after it shows nothing else either. -/
def Draws (holds : Token → Prop) (good : α → Prop) (p : Parse κ α) : Prop :=
  ∀ ⦃cursor : κ⦄, Cursor.Shows holds cursor →
    good (p.run cursor).value ∧ Cursor.Shows holds (p.run cursor).state

/-- A sequence draws on what its parts draw on. -/
theorem Draws.bind {good' : β → Prop} {p : Parse κ α} {f : α → Parse κ β} (h : Draws holds good p)
    (hf : ∀ a, good a → Draws holds good' (f a)) : Draws holds good' (p >>= f) := by
  intro cursor hshows
  obtain ⟨hgood, hafter⟩ := h hshows
  rw [Traced.run_bind]
  exact hf _ hgood hafter

theorem draws_pure {a : α} (h : good a) : Draws holds good (pure a : Parse κ α) :=
  fun _ hshows => ⟨h, hshows⟩

theorem draws_current : Draws holds holds (current : Parse κ Token) :=
  fun _ hshows => ⟨hshows 0, hshows⟩

theorem draws_position : Draws holds (fun _ => True) (position : Parse κ Nat) :=
  fun _ hshows => ⟨trivial, hshows⟩

theorem draws_record (event : Event) :
    Draws holds (fun _ => True) (Traced.record event : Parse κ Unit) :=
  fun _ hshows => ⟨trivial, hshows⟩

theorem draws_advance : Draws holds (fun _ => True) (advance : Parse κ Unit) :=
  fun _ hshows => ⟨trivial, fun n => hshows (n + 1)⟩

theorem draws_name : Draws holds (fun name => holds name.token) (name : Parse κ Name) :=
  fun _ hshows => ⟨hshows 0, hshows⟩

theorem draws_optionalSemicolon :
    Draws holds (fun _ => True) (optionalSemicolon : Parse κ Unit) := by
  intro cursor hshows
  rw [run_optionalSemicolon]
  refine ⟨trivial, ?_⟩
  show Cursor.Shows holds (if _ then Cursor.advance cursor else cursor)
  split
  · exact fun n => hshows (n + 1)
  · exact hshows

theorem draws_report {token : Token} (h : holds token) (position : Nat) (problem : Problem) :
    Draws holds (Expression.Holds holds) (report position token problem : Parse κ Expression) :=
  fun _ hshows => ⟨Expression.holds_error.mpr h, hshows⟩

theorem draws_reject (problem : Token → Problem) :
    Draws holds (Expression.Holds holds) (reject problem : Parse κ Expression) :=
  draws_current.bind fun _ htoken => draws_position.bind fun _ _ => draws_report htoken _ _

section forms

/-! ## Openings -/

theorem identifier_draws :
    Draws holds (Expression.Holds holds) (identifier : Parse κ Expression) := by
  exact draws_name.bind fun name hname => draws_pure (Expression.holds_identifier.mpr hname)

theorem number_draws : Draws holds (Expression.Holds holds) (number : Parse κ Expression) := by
  refine draws_current.bind fun token htoken => ?_
  split
  · exact draws_pure (Expression.holds_number.mpr htoken)
  · exact draws_reject _

theorem boolean_draws : Draws holds (Expression.Holds holds) (boolean : Parse κ Expression) := by
  exact draws_current.bind fun token htoken => draws_pure (Expression.holds_boolean.mpr htoken)

theorem unary_draws {operand : Parse κ Expression}
    (hoperand : Draws holds (Expression.Holds holds) operand) :
    Draws holds (Expression.Holds holds) (unary operand) := by
  refine draws_current.bind fun operator hoperator => ?_
  refine draws_advance.bind fun _ _ => ?_
  exact hoperand.bind fun e he => draws_pure (Expression.holds_unary.mpr ⟨hoperator, he⟩)

theorem block_draws {statements : Parse κ (List Statement)}
    (hstatements : Draws holds (Statement.HoldsEach holds) statements) :
    Draws holds (Block.Holds holds) (block statements) := by
  refine draws_current.bind fun token htoken => ?_
  refine draws_advance.bind fun _ _ => ?_
  exact hstatements.bind fun body hbody => draws_pure (Block.holds_mk.mpr ⟨htoken, hbody⟩)

variable [LawfulCursor κ]

theorem draws_peek : Draws holds holds (peek : Parse κ Token) := by
  intro cursor hshows
  have hpeek := hshows 1
  rw [Cursor.nth_one] at hpeek
  exact ⟨hpeek, hshows⟩

/-- The error node in the place of a token asked for is about the token ahead. -/
theorem Draws.expecting {kind : Kind} {broken : Expression → α} {next : Parse κ α}
    (h : Draws holds good next) (hbroken : ∀ e : Expression, e.Holds holds → good (broken e)) :
    Draws holds good (expecting kind broken next) := by
  refine draws_peek.bind fun found hfound => ?_
  split
  · exact draws_advance.bind fun _ _ => h
  · refine draws_position.bind fun position _ => ?_
    exact (draws_report hfound _ _).bind fun e he => draws_pure (hbroken e he)

theorem group_draws {inner : Parse κ Expression}
    (hinner : Draws holds (Expression.Holds holds) inner) :
    Draws holds (Expression.Holds holds) (group inner) := by
  refine draws_advance.bind fun _ _ => ?_
  refine hinner.bind fun e he => ?_
  exact (draws_pure he).expecting fun _ => id

theorem conditional_draws {condition : Parse κ Expression} {block : Parse κ Block}
    (hcondition : Draws holds (Expression.Holds holds) condition)
    (hblock : Draws holds (Block.Holds holds) block) :
    Draws holds (Expression.Holds holds) (conditional condition block) := by
  refine draws_current.bind fun token htoken => ?_
  refine Draws.expecting ?_ fun _ => id
  refine draws_advance.bind fun _ _ => ?_
  refine hcondition.bind fun e he => ?_
  refine Draws.expecting ?_ fun _ => id
  refine Draws.expecting ?_ fun _ => id
  refine hblock.bind fun consequence hconsequence => ?_
  refine draws_peek.bind fun next _ => ?_
  split
  · refine draws_advance.bind fun _ _ => ?_
    refine Draws.expecting ?_ fun _ => id
    refine hblock.bind fun alternative halternative => draws_pure ?_
    exact Expression.holds_ifElse.mpr ⟨htoken, he, hconsequence, halternative⟩
  · exact draws_pure (Expression.holds_ifThen.mpr ⟨htoken, he, hconsequence⟩)

theorem moreNames_draw (fuel : Nat) :
    Draws holds (ResultHolds holds (NamesHold holds))
      (moreNames fuel : Parse κ (Except Expression (List Name))) := by
  induction fuel with
  | zero => exact draws_pure (List.forall_mem_nil _)
  | succ fuel ih =>
    refine draws_peek.bind fun next _ => ?_
    split
    · refine draws_advance.bind fun _ _ => ?_
      refine Draws.expecting ?_ fun _ => id
      refine draws_name.bind fun name hname => ?_
      refine ih.bind fun others hothers => draws_pure ?_
      cases others with
      | error broken => exact hothers
      | ok names => exact List.forall_mem_cons.mpr ⟨hname, hothers⟩
    · exact draws_pure (List.forall_mem_nil _)

theorem parameters_draw (fuel : Nat) :
    Draws holds (ResultHolds holds (NamesHold holds))
      (parameters fuel : Parse κ (Except Expression (List Name))) := by
  refine draws_peek.bind fun next _ => ?_
  split
  · exact draws_advance.bind fun _ _ => draws_pure (List.forall_mem_nil _)
  · refine Draws.expecting ?_ fun _ => id
    refine draws_name.bind fun first hfirst => ?_
    refine (moreNames_draw fuel).bind fun others hothers => ?_
    cases others with
    | error broken => exact draws_pure hothers
    | ok rest =>
      refine Draws.expecting (draws_pure ?_) fun _ => id
      exact List.forall_mem_cons.mpr ⟨hfirst, hothers⟩

theorem function_draws (fuel : Nat) {block : Parse κ Block}
    (hblock : Draws holds (Block.Holds holds) block) :
    Draws holds (Expression.Holds holds) (function (parameters fuel) block) := by
  refine draws_current.bind fun token htoken => ?_
  refine Draws.expecting ?_ fun _ => id
  refine (parameters_draw fuel).bind fun names hnames => ?_
  cases names with
  | error broken => exact draws_pure hnames
  | ok names =>
    refine Draws.expecting ?_ fun _ => id
    refine hblock.bind fun body hbody => draws_pure ?_
    exact Expression.holds_function.mpr ⟨htoken, hnames, hbody⟩

/-- Whatever form a token opens, if it opens one. -/
theorem opening?_draws (fuel : Nat) {expression : Precedence → Parse κ Expression}
    {block : Parse κ Block}
    (hexpression : ∀ floor, Draws holds (Expression.Holds holds) (expression floor))
    (hblock : Draws holds (Block.Holds holds) block) (kind : Kind) :
    ∀ opening ∈ opening? expression (parameters fuel) block kind,
      Draws holds (Expression.Holds holds) opening := by
  intro opening hopening
  cases kind with
  | identifier => cases hopening; exact identifier_draws
  | number => cases hopening; exact number_draws
  | trueWord | falseWord => cases hopening; exact boolean_draws
  | bang | minus => cases hopening; exact unary_draws (hexpression _)
  | leftParen => cases hopening; exact group_draws (hexpression _)
  | ifWord => cases hopening; exact conditional_draws (hexpression _) hblock
  | funWord => cases hopening; exact function_draws fuel hblock
  | _ => cases hopening

/-! ## Continuations -/

theorem arguments_draw {expression : Parse κ Expression} {more : Parse κ (List Expression)}
    (hexpression : Draws holds (Expression.Holds holds) expression)
    (hmore : Draws holds (Expression.HoldsEach holds) more) :
    Draws holds (ResultHolds holds (Expression.HoldsEach holds)) (arguments expression more) := by
  refine draws_peek.bind fun next _ => ?_
  split
  · exact draws_advance.bind fun _ _ => draws_pure (List.forall_mem_nil _)
  · refine draws_advance.bind fun _ _ => ?_
    refine hexpression.bind fun first hfirst => ?_
    refine hmore.bind fun rest hrest => ?_
    refine Draws.expecting (draws_pure ?_) fun _ => id
    exact Expression.holdsEach_cons.mpr ⟨hfirst, hrest⟩

theorem continuation_draws {expression : Precedence → Parse κ Expression}
    {more : Parse κ (List Expression)}
    (hexpression : ∀ floor, Draws holds (Expression.Holds holds) (expression floor))
    (hmore : Draws holds (Expression.HoldsEach holds) more) (kind : Kind) {left : Expression}
    (hleft : left.Holds holds) :
    Draws holds (Expression.Holds holds) (continuation expression more kind left) := by
  unfold continuation
  split
  · refine draws_current.bind fun token _ => ?_
    refine (arguments_draw (hexpression _) hmore).bind fun result hresult => ?_
    cases result with
    | error broken => exact draws_pure hresult
    | ok arguments => exact draws_pure (Expression.holds_call.mpr ⟨hleft, hresult⟩)
  · refine draws_current.bind fun operator hoperator => ?_
    refine draws_advance.bind fun _ _ => ?_
    refine (hexpression _).bind fun right hright => draws_pure ?_
    exact Expression.holds_binary.mpr ⟨hleft, hoperator, hright⟩

/-! ## Statements -/

section statements

variable {expression : Parse κ Expression}
  (hexpression : Draws holds (Expression.Holds holds) expression)

include hexpression

theorem declaration_draws :
    Draws holds (fun s => Statement.HoldsEach holds s.toList) (declaration expression) := by
  have hnone : Statement.HoldsEach holds (none : Option Statement).toList := List.forall_mem_nil _
  refine draws_current.bind fun token htoken => ?_
  refine Draws.expecting ?_ fun _ _ => hnone
  refine draws_name.bind fun declared hdeclared => ?_
  refine Draws.expecting ?_ fun _ _ => hnone
  refine draws_advance.bind fun _ _ => ?_
  refine hexpression.bind fun value hvalue => ?_
  refine draws_optionalSemicolon.bind fun _ _ => draws_pure ?_
  rw [Statement.holdsEach_some, Statement.holds_say]
  exact ⟨htoken, hdeclared, hvalue⟩

theorem returning_draws : Draws holds (Statement.Holds holds) (returning expression) := by
  refine draws_current.bind fun token htoken => draws_peek.bind fun next _ => ?_
  split
  · refine draws_optionalSemicolon.bind fun _ _ => draws_pure ?_
    exact Statement.holds_bareReturn.mpr htoken
  · refine draws_advance.bind fun _ _ => ?_
    refine hexpression.bind fun value hvalue => ?_
    refine draws_optionalSemicolon.bind fun _ _ => draws_pure ?_
    exact Statement.holds_returnOf.mpr ⟨htoken, hvalue⟩

omit [LawfulCursor κ] in
theorem expressionStatement_draws :
    Draws holds (Statement.Holds holds) (expressionStatement expression) := by
  refine draws_current.bind fun token _ => ?_
  refine hexpression.bind fun value hvalue => ?_
  refine draws_optionalSemicolon.bind fun _ _ => draws_pure ?_
  exact Statement.holds_expression.mpr hvalue

theorem statement_draws :
    Draws holds (fun s => Statement.HoldsEach holds s.toList) (statement expression) := by
  refine draws_current.bind fun token _ => ?_
  refine draws_position.bind fun position _ => ?_
  refine (draws_record _).bind fun _ _ => ?_
  split
  · exact declaration_draws hexpression
  · exact declaration_draws hexpression
  · refine (returning_draws hexpression).bind fun value hvalue => draws_pure ?_
    exact Statement.holdsEach_some.mpr hvalue
  · refine (expressionStatement_draws hexpression).bind fun value hvalue => draws_pure ?_
    exact Statement.holdsEach_some.mpr hvalue

/-- A statement and then the others. -/
theorem body_draws {others : Parse κ (List Statement)}
    (hothers : Draws holds (Statement.HoldsEach holds) others) :
    Draws holds (Statement.HoldsEach holds)
      (do
        let first ← statement expression
        advance
        return first.toList ++ (← others)) := by
  refine (statement_draws hexpression).bind fun first hfirst => ?_
  refine draws_advance.bind fun _ _ => ?_
  exact hothers.bind fun rest hrest => draws_pure (hfirst.append hrest)

end statements

/-! ## The forms tied together -/

/-- The parsers of one fuel draw on the tokens that there are. -/
structure Drawing (κ : Type) [Cursor κ] (holds : Token → Prop) (fuel : Nat) : Prop where
  /-- Expressions. -/
  expression (floor : Precedence) :
    Draws holds (Expression.Holds holds) (expression fuel floor : Parse κ Expression)
  /-- What an expression goes on with. -/
  climb (floor : Precedence) {left : Expression} : left.Holds holds →
    Draws holds (Expression.Holds holds) (climb fuel floor left : Parse κ Expression)
  /-- Further arguments. -/
  moreArguments :
    Draws holds (Expression.HoldsEach holds) (moreArguments fuel : Parse κ (List Expression))
  /-- Statements of a block. -/
  blockStatements :
    Draws holds (Statement.HoldsEach holds) (blockStatements fuel : Parse κ (List Statement))

omit [LawfulCursor κ] in
theorem drawing_zero : Drawing κ holds 0 where
  expression _ := draws_reject _
  climb _ _ hleft := draws_pure hleft
  moreArguments := draws_pure (List.forall_mem_nil _)
  blockStatements := draws_pure (List.forall_mem_nil _)

section succ

variable {fuel : Nat} (hdraws : Drawing κ holds fuel)

include hdraws

theorem expression_draws (floor : Precedence) :
    Draws holds (Expression.Holds holds) (expression (fuel + 1) floor : Parse κ Expression) := by
  refine draws_position.bind fun position _ => ?_
  refine (draws_record _).bind fun _ _ => ?_
  refine draws_current.bind fun token _ => ?_
  split
  next => exact draws_reject _
  next opening hsome =>
    refine Draws.bind ?_ fun left hleft => hdraws.climb floor hleft
    exact opening?_draws fuel hdraws.expression (block_draws hdraws.blockStatements) _ opening hsome

theorem climb_draws (floor : Precedence) {left : Expression} (hleft : left.Holds holds) :
    Draws holds (Expression.Holds holds) (climb (fuel + 1) floor left : Parse κ Expression) := by
  refine draws_peek.bind fun next _ => ?_
  split
  · refine draws_advance.bind fun _ _ => ?_
    refine Draws.bind ?_ fun folded hfolded => hdraws.climb floor hfolded
    exact continuation_draws hdraws.expression hdraws.moreArguments _ hleft
  · exact draws_pure hleft

theorem moreArguments_draw :
    Draws holds (Expression.HoldsEach holds)
      (moreArguments (fuel + 1) : Parse κ (List Expression)) := by
  refine draws_peek.bind fun next _ => ?_
  split
  · refine draws_advance.bind fun _ _ => draws_advance.bind fun _ _ => ?_
    refine (hdraws.expression _).bind fun first hfirst => ?_
    refine hdraws.moreArguments.bind fun rest hrest => draws_pure ?_
    exact Expression.holdsEach_cons.mpr ⟨hfirst, hrest⟩
  · exact draws_pure (List.forall_mem_nil _)

theorem blockStatements_draw :
    Draws holds (Statement.HoldsEach holds)
      (blockStatements (fuel + 1) : Parse κ (List Statement)) := by
  refine draws_current.bind fun token _ => ?_
  split
  · exact draws_pure (List.forall_mem_nil _)
  · exact (draws_reject _).bind fun _ _ => draws_pure (List.forall_mem_nil _)
  · exact body_draws (hdraws.expression _) hdraws.blockStatements

end succ

/-- The parsers draw on the tokens that there are, whatever their fuel. -/
theorem drawing (fuel : Nat) : Drawing κ holds fuel := by
  induction fuel with
  | zero => exact drawing_zero
  | succ fuel ih =>
    exact ⟨expression_draws ih, climb_draws ih, moreArguments_draw ih, blockStatements_draw ih⟩

theorem statements_draw (fuel : Nat) :
    Draws holds (Statement.HoldsEach holds) (statements fuel : Parse κ (List Statement)) := by
  induction fuel with
  | zero => exact draws_pure (List.forall_mem_nil _)
  | succ fuel ih =>
    refine draws_current.bind fun token _ => ?_
    split
    · exact draws_pure (List.forall_mem_nil _)
    · exact body_draws ((drawing fuel).expression _) ih

end forms

end Parse

/-- Every token of a parsed tree is a token of the text, whether the text is right or wrong. -/
theorem tokens_program_mem (source : String) :
    ∀ token ∈ (parse source).program.tokens, token ∈ tokenize source := by
  have hshows : Cursor.Shows (· ∈ tokenize source) (Window.ofSource source) := by
    intro n
    show (Course.ofSource source).token n ∈ tokenize source
    rw [← Course.token_min]
    exact List.mem_of_getElem? (Course.getElem?_tokenize (min_le_right _ _))
  have hdraws := (Parse.statements_draw (Cursor.ahead (Window.ofSource source) + 3) hshows).1
  rwa [← statements_parseFrom] at hdraws

end SayLang
