import SayLang.Proofs.Layout
import SayLang.Proofs.Outlook
import SayLang.Proofs.Reading
import SayLang.Proofs.Shape
import SayLang.Proofs.WholeRuns
import SayLang.Syntax.Walk

/-!
# How the parser forms a tree

Whatever the text, right or wrong, each node of the tree that is parsed from it is of the kind that
its token says: an operator is spelled as operators of its kind are, a number has the value of its
digits, a name is that of an identifier, and an error node carries the message of a diagnostic that
was recorded (`Node.Formed`).

> `parse_formed`: that, of all nodes of the tree at any depth.

There is one lemma for each form of the grammar, and the recursion is on the fuel. Nothing is asked
of the fuel: an expression for which there is none is reported like any other.
-/

namespace SayLang

/-! ## Spellings -/

/-- Are all tokens of the kind spelled alike? -/
def Kind.isFixed : Kind → Bool
  | identifier | number | illegal | eof => false
  | _ => true

/-- The token is spelled as its kind says, if that says it. -/
def Token.Spelled (token : Token) : Prop :=
  token.kind.isFixed = true → token.literal = token.kind.text

/-- Operators and keywords are spelled as their kinds are. -/
theorem Spells.text_eq {kind : Kind} {text : String} (h : Spells kind text)
    (hfixed : kind.isFixed = true) : text = kind.text := by
  cases h with
  | sign _ | keyword _ => rfl
  | name _ _ _ | number _ _ | illegal _ _ _ _ => cases hfixed

theorem Lexer.next_spelled (lexer : Lexer) : lexer.next.1.Spelled := by
  intro h
  rcases lexer.next_eof_or_spells with ⟨heof, -⟩ | hspells
  · rw [heof] at h
    cases h
  · exact hspells.text_eq h

/-- All tokens that the cursor comes to see are spelled as their kinds say. -/
def Cursor.Spelled {κ : Type} [Cursor κ] (cursor : κ) : Prop :=
  ∀ n, (Cursor.nth cursor n).Spelled

theorem Cursor.Spelled.current {κ : Type} [Cursor κ] {cursor : κ} (h : Cursor.Spelled cursor) :
    (Cursor.current cursor).Spelled :=
  h 0

theorem Cursor.Spelled.advance {κ : Type} [Cursor κ] {cursor : κ} (h : Cursor.Spelled cursor) :
    Cursor.Spelled (Cursor.advance cursor) :=
  fun n => h (n + 1)

/-- What holds of every token that is cut holds of all that a window comes to see. -/
theorem Window.nth_of_next {holds : Token → Prop} (h : ∀ lexer : Lexer, holds lexer.next.1)
    (n : Nat) :
    ∀ window : Window, holds window.current → holds window.peek →
      holds (Cursor.nth window n) := by
  induction n with
  | zero => exact fun _ hcurrent _ => hcurrent
  | succ n ih => exact fun window _ hpeek => ih window.advance hpeek (h _)

theorem Window.ofSource_spelled (source : String) : Cursor.Spelled (Window.ofSource source) :=
  fun n =>
    Window.nth_of_next Lexer.next_spelled n _ (Lexer.next_spelled _) (Lexer.next_spelled _)

/-! ## Nodes -/

/-- The node is of the kind that its token says, and what an error node says was recorded. -/
def Node.Formed (recorded : Diagnostic → Prop) : Node → Prop
  | .program _ => True
  | .block body => body.token.kind = .leftBrace
  | .statement (.expression token _) =>
    token.kind ≠ .sayWord ∧ token.kind ≠ .invarWord ∧ token.kind ≠ .returnWord ∧ token.kind ≠ .eof
  | .statement (.say token name _) =>
    (token.kind = .sayWord ∨ token.kind = .invarWord) ∧ name.Shaped
  | .statement (.bareReturn token) | .statement (.returnOf token _) => token.kind = .returnWord
  | .statement (.block _) => False
  | .expression (.identifier name) => name.Shaped
  | .expression (.number token value) =>
    token.kind = .number ∧ Integer.ofDigits? token.literal = some value
  | .expression (.boolean token value) => token.kind = (if value then .trueWord else .falseWord)
  | .expression (.unary operator _) =>
    (operator.kind = .bang ∨ operator.kind = .minus) ∧ operator.literal = operator.kind.text
  | .expression (.binary _ operator _) =>
    Grammar.IsBinary operator.kind ∧ operator.literal = operator.kind.text
  | .expression (.ifThen token _ _) | .expression (.ifElse token _ _ _) => token.kind = .ifWord
  | .expression (.function token parameters _) =>
    token.kind = .funWord ∧ ∀ name ∈ parameters, name.Shaped
  | .expression (.call token _ _) => token.kind = .leftParen
  | .expression (.error token message) =>
    ∃ found, recorded found ∧ found.line = token.line ∧ found.problem.message = message

/-- All nodes of a list are. -/
def AllFormed (recorded : Diagnostic → Prop) (nodes : List Node) : Prop :=
  ∀ node ∈ nodes, node.Formed recorded

section formed

variable {recorded : Diagnostic → Prop} {node : Node} {nodes nodes' : List Node}

@[simp] theorem allFormed_nil : AllFormed recorded [] := List.forall_mem_nil _

@[simp] theorem allFormed_cons :
    AllFormed recorded (node :: nodes) ↔ node.Formed recorded ∧ AllFormed recorded nodes :=
  List.forall_mem_cons

@[simp] theorem allFormed_append :
    AllFormed recorded (nodes ++ nodes') ↔ AllFormed recorded nodes ∧ AllFormed recorded nodes' :=
  List.forall_mem_append

theorem Grammar.isFixed_of_isBinary {kind : Kind} (h : IsBinary kind) : kind.isFixed = true := by
  rcases h with rfl | rfl | rfl | rfl | rfl | rfl | rfl | rfl <;> rfl

end formed

/-- All nodes of the expression are. -/
abbrev Expression.Formed (recorded : Diagnostic → Prop) (e : Expression) : Prop :=
  AllFormed recorded e.nodes

/-- All nodes of the expressions are. -/
abbrev Expression.FormedEach (recorded : Diagnostic → Prop) (es : List Expression) : Prop :=
  AllFormed recorded (Expression.nodesOfEach es)

/-- All nodes of the statement are. -/
abbrev Statement.Formed (recorded : Diagnostic → Prop) (s : Statement) : Prop :=
  AllFormed recorded s.nodes

/-- All nodes of the statements are. -/
abbrev Statement.FormedEach (recorded : Diagnostic → Prop) (ss : List Statement) : Prop :=
  AllFormed recorded (Statement.nodesOfEach ss)

/-- All nodes of the block are. -/
abbrev Block.Formed (recorded : Diagnostic → Prop) (body : Block) : Prop :=
  AllFormed recorded body.nodes

/-! What is to be said of the node itself, and of its parts. -/

section parts

variable {recorded : Diagnostic → Prop} {token : Token} {name : Name} {value : Integer}
  {names : List Name} {e left right condition callee : Expression} {es : List Expression}
  {body consequence alternative : Block} {s : Statement} {ss : List Statement}

theorem Expression.formed_identifier : (identifier name).Formed recorded ↔
    Node.Formed recorded (.expression (.identifier name)) := by
  show AllFormed recorded [_] ↔ _
  rw [allFormed_cons, and_iff_left allFormed_nil]

theorem Expression.formed_number : (number token value).Formed recorded ↔
    Node.Formed recorded (.expression (.number token value)) := by
  show AllFormed recorded [_] ↔ _
  rw [allFormed_cons, and_iff_left allFormed_nil]

theorem Expression.formed_boolean {truth : Bool} : (boolean token truth).Formed recorded ↔
    Node.Formed recorded (.expression (.boolean token truth)) := by
  show AllFormed recorded [_] ↔ _
  rw [allFormed_cons, and_iff_left allFormed_nil]

theorem Expression.formed_error {message : String} : (error token message).Formed recorded ↔
    Node.Formed recorded (.expression (.error token message)) := by
  show AllFormed recorded [_] ↔ _
  rw [allFormed_cons, and_iff_left allFormed_nil]

theorem Expression.formed_unary : (unary token e).Formed recorded ↔
    Node.Formed recorded (.expression (.unary token e)) ∧ e.Formed recorded := by
  show AllFormed recorded (_ :: _) ↔ _
  rw [allFormed_cons]

theorem Expression.formed_binary : (binary left token right).Formed recorded ↔
    Node.Formed recorded (.expression (.binary left token right)) ∧ left.Formed recorded ∧
      right.Formed recorded := by
  show AllFormed recorded (_ :: (_ ++ _)) ↔ _
  rw [allFormed_cons, allFormed_append]

theorem Expression.formed_ifThen : (ifThen token condition consequence).Formed recorded ↔
    Node.Formed recorded (.expression (.ifThen token condition consequence)) ∧
      condition.Formed recorded ∧ consequence.Formed recorded := by
  show AllFormed recorded (_ :: (_ ++ _)) ↔ _
  rw [allFormed_cons, allFormed_append]

theorem Expression.formed_ifElse :
    (ifElse token condition consequence alternative).Formed recorded ↔
      Node.Formed recorded (.expression (.ifElse token condition consequence alternative)) ∧
        condition.Formed recorded ∧ consequence.Formed recorded ∧
          alternative.Formed recorded := by
  show AllFormed recorded (_ :: (_ ++ _ ++ _)) ↔ _
  rw [allFormed_cons, allFormed_append, allFormed_append,
    and_assoc (a := condition.Formed recorded)]

theorem Expression.formed_function : (function token names body).Formed recorded ↔
    Node.Formed recorded (.expression (.function token names body)) ∧ body.Formed recorded := by
  show AllFormed recorded (_ :: _) ↔ _
  rw [allFormed_cons]

theorem Expression.formed_call : (call token callee es).Formed recorded ↔
    Node.Formed recorded (.expression (.call token callee es)) ∧ callee.Formed recorded ∧
      Expression.FormedEach recorded es := by
  show AllFormed recorded (_ :: (_ ++ _)) ↔ _
  rw [allFormed_cons, allFormed_append]

theorem Expression.formedEach_cons : Expression.FormedEach recorded (e :: es) ↔
    e.Formed recorded ∧ Expression.FormedEach recorded es := by
  show AllFormed recorded (_ ++ _) ↔ _
  rw [allFormed_append]

theorem Statement.formed_expression : (expression token e).Formed recorded ↔
    Node.Formed recorded (.statement (.expression token e)) ∧ e.Formed recorded := by
  show AllFormed recorded (_ :: _) ↔ _
  rw [allFormed_cons]

theorem Statement.formed_say : (say token name e).Formed recorded ↔
    Node.Formed recorded (.statement (.say token name e)) ∧ e.Formed recorded := by
  show AllFormed recorded (_ :: _) ↔ _
  rw [allFormed_cons]

theorem Statement.formed_bareReturn : (bareReturn token).Formed recorded ↔
    Node.Formed recorded (.statement (.bareReturn token)) := by
  show AllFormed recorded [_] ↔ _
  rw [allFormed_cons, and_iff_left allFormed_nil]

theorem Statement.formed_returnOf : (returnOf token e).Formed recorded ↔
    Node.Formed recorded (.statement (.returnOf token e)) ∧ e.Formed recorded := by
  show AllFormed recorded (_ :: _) ↔ _
  rw [allFormed_cons]

theorem Statement.formed_block : (block body).Formed recorded ↔
    Node.Formed recorded (.statement (.block body)) ∧ body.Formed recorded := by
  show AllFormed recorded (_ :: _) ↔ _
  rw [allFormed_cons]

theorem Statement.formedEach_cons : Statement.FormedEach recorded (s :: ss) ↔
    s.Formed recorded ∧ Statement.FormedEach recorded ss := by
  show AllFormed recorded (_ ++ _) ↔ _
  rw [allFormed_append]

theorem Statement.formedEach_some : Statement.FormedEach recorded (some s).toList ↔
    s.Formed recorded := by
  rw [Option.toList_some, formedEach_cons]
  exact and_iff_left allFormed_nil

theorem Block.formed_mk : (Block.mk token ss).Formed recorded ↔
    token.kind = .leftBrace ∧ Statement.FormedEach recorded ss := by
  show AllFormed recorded (_ :: _) ↔ _
  rw [allFormed_cons]
  rfl

theorem Program.allFormed_nodes {program : Program} : AllFormed recorded program.nodes ↔
    Statement.FormedEach recorded program.statements := by
  rw [Program.nodes, allFormed_cons]
  exact and_iff_right trivial

end parts

/-- A list of parts is as it should be, or else the broken part is. -/
def ResultFormed {α : Type} (recorded : Diagnostic → Prop) (holds : α → Prop) :
    Except Expression α → Prop
  | .error broken => broken.Formed recorded
  | .ok value => holds value

namespace Parse

variable {κ α : Type} [Cursor κ] {recorded : Diagnostic → Prop} {holds : α → Prop} {cursor : κ}

/-! ## Steps -/

/-- What comes out is as it should be, and the tokens ahead are spelled as their kinds say. -/
abbrev Forms (recorded : Diagnostic → Prop) (holds : α → Prop) (p : Parse κ α) (cursor : κ) :
    Prop :=
  Assuming recorded p cursor fun value after => holds value ∧ Cursor.Spelled after

/-- That, wherever the cursor is. -/
def FormsAlways (recorded : Diagnostic → Prop) (holds : α → Prop) (p : Parse κ α) : Prop :=
  ∀ ⦃cursor : κ⦄, Cursor.Spelled cursor → Forms recorded holds p cursor

/-- The same of a parser of blocks, which is entered at a brace. -/
def FormsBlocks (recorded : Diagnostic → Prop) (p : Parse κ Block) : Prop :=
  ∀ ⦃cursor : κ⦄, Cursor.Spelled cursor → (Cursor.current cursor).kind = .leftBrace →
    Forms recorded (Block.Formed recorded) p cursor

/-- The error node that takes the place of a token says what is recorded of it. -/
theorem formed_error {token : Token} {problem : Problem} (h : recorded ⟨token.line, problem⟩) :
    (Expression.error token problem.message).Formed recorded := by
  rw [Expression.formed_error]
  exact ⟨_, h, rfl, rfl⟩

theorem reject_forms (problem : Token → Problem) (h : Cursor.Spelled cursor) :
    Forms recorded (Expression.Formed recorded) (reject problem) cursor := by
  rw [Forms, assuming_reject]
  exact fun hrecorded => ⟨formed_error hrecorded, h⟩

theorem optionalSemicolon_spelled (h : Cursor.Spelled cursor) :
    Cursor.Spelled (if (Cursor.peek cursor).kind = .semicolon then Cursor.advance cursor
      else cursor) := by
  split
  · exact h.advance
  · exact h

/-! ## Openings -/

theorem identifier_forms (h : Cursor.Spelled cursor)
    (hk : (Cursor.current cursor).kind = .identifier) :
    Forms recorded (Expression.Formed recorded) identifier cursor := by
  simp only [Forms, identifier, assuming_bind, assuming_name, assuming_pure,
    Expression.formed_identifier]
  exact ⟨⟨hk, rfl⟩, h⟩

theorem number_forms (h : Cursor.Spelled cursor) (hk : (Cursor.current cursor).kind = .number) :
    Forms recorded (Expression.Formed recorded) number cursor := by
  simp only [Forms, number, assuming_bind, assuming_current]
  cases hvalue : Integer.ofDigits? (Cursor.current cursor).literal with
  | none => exact reject_forms _ h
  | some value =>
    rw [assuming_pure, Expression.formed_number]
    exact ⟨⟨hk, hvalue⟩, h⟩

theorem boolean_forms (h : Cursor.Spelled cursor)
    (hk : (Cursor.current cursor).kind = .trueWord ∨ (Cursor.current cursor).kind = .falseWord) :
    Forms recorded (Expression.Formed recorded) boolean cursor := by
  simp only [Forms, boolean, assuming_bind, assuming_current, assuming_pure,
    Expression.formed_boolean]
  refine ⟨?_, h⟩
  rcases hk with hk | hk <;> simp [Node.Formed, hk]

theorem unary_forms {operand : Parse κ Expression}
    (hoperand : FormsAlways recorded (Expression.Formed recorded) operand)
    (h : Cursor.Spelled cursor)
    (hk : (Cursor.current cursor).kind = .bang ∨ (Cursor.current cursor).kind = .minus) :
    Forms recorded (Expression.Formed recorded) (unary operand) cursor := by
  have hspelled : (Cursor.current cursor).literal = (Cursor.current cursor).kind.text :=
    h.current (by rcases hk with hk | hk <;> rw [hk] <;> rfl)
  simp only [Forms, unary, assuming_bind, assuming_current, assuming_advance, assuming_pure,
    Expression.formed_unary]
  refine (hoperand h.advance).mono ?_
  rintro e after ⟨he, hafter⟩
  exact ⟨⟨⟨hk, hspelled⟩, he⟩, hafter⟩

variable [LawfulCursor κ]

/-- A token asked for is there, or the error node that says so takes the place of the piece. -/
theorem expecting_forms {kind : Kind} {broken : Expression → α} {next : Parse κ α}
    (h : Cursor.Spelled cursor) (hbroken : ∀ e, e.Formed recorded → holds (broken e))
    (hnext : (Cursor.current (Cursor.advance cursor)).kind = kind →
      Forms recorded holds next (Cursor.advance cursor)) :
    Forms recorded holds (expecting kind broken next) cursor := by
  rw [Forms, assuming_expecting, ← LawfulCursor.current_advance]
  exact ⟨hnext, fun _ hrecorded => ⟨hbroken _ (formed_error hrecorded), h⟩⟩

theorem group_forms {inner : Parse κ Expression}
    (hinner : FormsAlways recorded (Expression.Formed recorded) inner) (h : Cursor.Spelled cursor) :
    Forms recorded (Expression.Formed recorded) (group inner) cursor := by
  simp only [Forms, group, assuming_bind, assuming_advance]
  refine (hinner h.advance).mono ?_
  rintro e after ⟨he, hafter⟩
  refine expecting_forms hafter (fun _ => id) fun _ => ?_
  rw [Forms, assuming_pure]
  exact ⟨he, hafter.advance⟩

theorem conditional_forms {condition : Parse κ Expression} {block : Parse κ Block}
    (hcondition : FormsAlways recorded (Expression.Formed recorded) condition)
    (hblock : FormsBlocks recorded block) (h : Cursor.Spelled cursor)
    (hk : (Cursor.current cursor).kind = .ifWord) :
    Forms recorded (Expression.Formed recorded) (conditional condition block) cursor := by
  simp only [Forms, conditional, assuming_bind, assuming_current]
  refine expecting_forms h (fun _ => id) fun _ => ?_
  simp only [Forms, assuming_bind, assuming_advance]
  refine (hcondition h.advance.advance).mono ?_
  rintro e after₁ ⟨he, hafter₁⟩
  refine expecting_forms hafter₁ (fun _ => id) fun _ => ?_
  refine expecting_forms hafter₁.advance (fun _ => id) fun hbrace => ?_
  rw [Forms, assuming_bind]
  refine (hblock hafter₁.advance.advance hbrace).mono ?_
  rintro consequence after₂ ⟨hconsequence, hafter₂⟩
  rw [assuming_bind, assuming_peek]
  split
  · rw [assuming_bind, assuming_advance]
    refine expecting_forms hafter₂.advance (fun _ => id) fun hbrace' => ?_
    rw [Forms, assuming_bind]
    refine (hblock hafter₂.advance.advance hbrace').mono ?_
    rintro alternative after₃ ⟨halternative, hafter₃⟩
    rw [assuming_pure, Expression.formed_ifElse]
    exact ⟨⟨hk, he, hconsequence, halternative⟩, hafter₃⟩
  · rw [assuming_pure, Expression.formed_ifThen]
    exact ⟨⟨hk, he, hconsequence⟩, hafter₂⟩

/-- Names of parameters as they should be. -/
abbrev NamesShaped (names : List Name) : Prop := ∀ name ∈ names, name.Shaped

theorem moreNames_forms (fuel : Nat) :
    FormsAlways recorded (ResultFormed recorded NamesShaped) (moreNames fuel : Parse κ _) := by
  induction fuel with
  | zero =>
    intro cursor h
    rw [Forms, moreNames, assuming_pure]
    exact ⟨List.forall_mem_nil _, h⟩
  | succ fuel ih =>
    intro cursor h
    rw [Forms, moreNames, assuming_bind, assuming_peek]
    split
    · rw [assuming_bind, assuming_advance]
      refine expecting_forms h.advance (fun _ => id) fun hname => ?_
      simp only [Forms, assuming_bind, assuming_name, assuming_pure]
      refine (ih h.advance.advance).mono ?_
      rintro others after ⟨hothers, hafter⟩
      refine ⟨?_, hafter⟩
      cases others with
      | error broken => exact hothers
      | ok names => exact List.forall_mem_cons.mpr ⟨⟨hname, rfl⟩, hothers⟩
    · rw [assuming_pure]
      exact ⟨List.forall_mem_nil _, h⟩

theorem parameters_forms (fuel : Nat) :
    FormsAlways recorded (ResultFormed recorded NamesShaped) (parameters fuel : Parse κ _) := by
  intro cursor h
  rw [Forms, parameters, assuming_bind, assuming_peek]
  split
  · rw [assuming_bind, assuming_advance, assuming_pure]
    exact ⟨List.forall_mem_nil _, h.advance⟩
  · refine expecting_forms h (fun _ => id) fun hname => ?_
    simp only [Forms, assuming_bind, assuming_name]
    refine (moreNames_forms fuel h.advance).mono ?_
    rintro others after ⟨hothers, hafter⟩
    cases others with
    | error broken =>
      rw [assuming_pure]
      exact ⟨hothers, hafter⟩
    | ok names =>
      refine expecting_forms hafter (fun _ => id) fun _ => ?_
      rw [Forms, assuming_pure]
      exact ⟨List.forall_mem_cons.mpr ⟨⟨hname, rfl⟩, hothers⟩, hafter.advance⟩

theorem function_forms (fuel : Nat) {block : Parse κ Block} (hblock : FormsBlocks recorded block)
    (h : Cursor.Spelled cursor) (hk : (Cursor.current cursor).kind = .funWord) :
    Forms recorded (Expression.Formed recorded) (function (parameters fuel) block) cursor := by
  simp only [Forms, function, assuming_bind, assuming_current]
  refine expecting_forms h (fun _ => id) fun _ => ?_
  rw [Forms, assuming_bind]
  refine (parameters_forms fuel h.advance).mono ?_
  rintro names after₁ ⟨hnames, hafter₁⟩
  cases names with
  | error broken =>
    rw [assuming_pure]
    exact ⟨hnames, hafter₁⟩
  | ok names =>
    refine expecting_forms hafter₁ (fun _ => id) fun hbrace => ?_
    rw [Forms, assuming_bind]
    refine (hblock hafter₁.advance hbrace).mono ?_
    rintro body after₂ ⟨hbody, hafter₂⟩
    rw [assuming_pure, Expression.formed_function]
    exact ⟨⟨⟨hk, hnames⟩, hbody⟩, hafter₂⟩

/-- Whatever form the current token opens, if it opens one. -/
theorem opening?_forms (fuel : Nat) {expression : Precedence → Parse κ Expression}
    {block : Parse κ Block}
    (hexpression : ∀ floor,
      FormsAlways recorded (Expression.Formed recorded) (expression floor))
    (hblock : FormsBlocks recorded block) (h : Cursor.Spelled cursor) :
    match opening? expression (parameters fuel) block (Cursor.current cursor).kind with
    | none => True
    | some opening => Forms recorded (Expression.Formed recorded) opening cursor := by
  cases hk : (Cursor.current cursor).kind with
  | identifier => exact identifier_forms h hk
  | number => exact number_forms h hk
  | trueWord => exact boolean_forms h (.inl hk)
  | falseWord => exact boolean_forms h (.inr hk)
  | bang => exact unary_forms (hexpression _) h (.inl hk)
  | minus => exact unary_forms (hexpression _) h (.inr hk)
  | leftParen => exact group_forms (hexpression _) h
  | ifWord => exact conditional_forms (hexpression _) hblock h hk
  | funWord => exact function_forms fuel hblock h hk
  | _ => trivial

/-! ## Continuations -/

theorem arguments_forms {expression : Parse κ Expression} {more : Parse κ (List Expression)}
    (hexpression : FormsAlways recorded (Expression.Formed recorded) expression)
    (hmore : FormsAlways recorded (Expression.FormedEach recorded) more) :
    FormsAlways recorded (ResultFormed recorded (Expression.FormedEach recorded))
      (arguments expression more) := by
  intro cursor h
  rw [Forms, arguments, assuming_bind, assuming_peek]
  split
  · rw [assuming_bind, assuming_advance, assuming_pure]
    exact ⟨allFormed_nil, h.advance⟩
  · simp only [assuming_bind, assuming_advance]
    refine (hexpression h.advance).mono ?_
    rintro first after₁ ⟨hfirst, hafter₁⟩
    refine (hmore hafter₁).mono ?_
    rintro others after₂ ⟨hothers, hafter₂⟩
    refine expecting_forms hafter₂ (fun _ => id) fun _ => ?_
    rw [Forms, assuming_pure]
    refine ⟨?_, hafter₂.advance⟩
    exact Expression.formedEach_cons.mpr ⟨hfirst, hothers⟩

/-- What binds at all and is no opening parenthesis is an operator between operands. -/
theorem continuation_forms {floor : Precedence} {expression : Precedence → Parse κ Expression}
    {more : Parse κ (List Expression)} {left : Expression}
    (hexpression : ∀ floor,
      FormsAlways recorded (Expression.Formed recorded) (expression floor))
    (hmore : FormsAlways recorded (Expression.FormedEach recorded) more)
    (hleft : left.Formed recorded) (h : Cursor.Spelled cursor)
    (hlt : floor < (Cursor.current cursor).kind.precedence) :
    Forms recorded (Expression.Formed recorded)
      (continuation expression more (Cursor.current cursor).kind left) cursor := by
  unfold continuation
  split
  next hk =>
    simp only [Forms, call, assuming_bind, assuming_current]
    refine (arguments_forms (hexpression _) hmore h).mono ?_
    rintro result after ⟨hresult, hafter⟩
    cases result with
    | error broken =>
      rw [assuming_pure]
      exact ⟨hresult, hafter⟩
    | ok arguments =>
      rw [assuming_pure, Expression.formed_call]
      exact ⟨⟨hk, hleft, hresult⟩, hafter⟩
  next hk =>
    have hbinary := isBinary_of_lt hlt hk
    have hspelled : (Cursor.current cursor).literal = (Cursor.current cursor).kind.text :=
      h.current (Grammar.isFixed_of_isBinary hbinary)
    simp only [Forms, binary, assuming_bind, assuming_current, assuming_advance, assuming_pure,
      Expression.formed_binary]
    refine (hexpression _ h.advance).mono ?_
    rintro right after ⟨hright, hafter⟩
    exact ⟨⟨⟨hbinary, hspelled⟩, hleft, hright⟩, hafter⟩

/-! ## Statements -/

section statements

variable {expression : Parse κ Expression}
variable (hexpression : FormsAlways recorded (Expression.Formed recorded) expression)

include hexpression

theorem declaration_forms (h : Cursor.Spelled cursor)
    (hk : (Cursor.current cursor).kind = .sayWord ∨ (Cursor.current cursor).kind = .invarWord) :
    Forms recorded (fun s => Statement.FormedEach recorded s.toList) (declaration expression)
      cursor := by
  simp only [Forms, declaration, assuming_bind, assuming_current]
  refine expecting_forms h (fun _ _ => allFormed_nil) fun hname => ?_
  simp only [Forms, assuming_bind, assuming_name]
  refine expecting_forms h.advance (fun _ _ => allFormed_nil) fun _ => ?_
  simp only [Forms, assuming_bind, assuming_advance]
  refine (hexpression h.advance.advance.advance).mono ?_
  rintro value after ⟨hvalue, hafter⟩
  rw [assuming_optionalSemicolon, assuming_pure, Statement.formedEach_some,
    Statement.formed_say]
  exact ⟨⟨⟨hk, hname, rfl⟩, hvalue⟩, optionalSemicolon_spelled hafter⟩

omit [LawfulCursor κ] in
theorem returning_forms (h : Cursor.Spelled cursor)
    (hk : (Cursor.current cursor).kind = .returnWord) :
    Forms recorded (Statement.Formed recorded) (returning expression) cursor := by
  simp only [Forms, returning, assuming_bind, assuming_current, assuming_peek]
  split
  · rw [assuming_bind, assuming_optionalSemicolon, assuming_pure, Statement.formed_bareReturn]
    exact ⟨hk, optionalSemicolon_spelled h⟩
  · simp only [assuming_bind, assuming_advance]
    refine (hexpression h.advance).mono ?_
    rintro value after ⟨hvalue, hafter⟩
    rw [assuming_optionalSemicolon, assuming_pure, Statement.formed_returnOf]
    exact ⟨⟨hk, hvalue⟩, optionalSemicolon_spelled hafter⟩

/-- Statements are only asked for where there is still a token. -/
theorem statement_forms (h : Cursor.Spelled cursor) (hne : (Cursor.current cursor).kind ≠ .eof) :
    Forms recorded (fun s => Statement.FormedEach recorded s.toList) (statement expression)
      cursor := by
  simp only [Forms, statement, assuming_bind, assuming_current, assuming_position,
    assuming_record_statement]
  split
  next hk => exact declaration_forms hexpression h (.inl hk)
  next hk => exact declaration_forms hexpression h (.inr hk)
  next hk =>
    rw [assuming_bind]
    refine (returning_forms hexpression h hk).mono ?_
    rintro value after ⟨hvalue, hafter⟩
    rw [assuming_pure, Statement.formedEach_some]
    exact ⟨hvalue, hafter⟩
  next hsay hinvar hreturn =>
    simp only [assuming_bind, expressionStatement, assuming_current]
    refine (hexpression h).mono ?_
    rintro value after ⟨hvalue, hafter⟩
    simp only [assuming_optionalSemicolon, assuming_pure, Statement.formedEach_some,
      Statement.formed_expression]
    exact ⟨⟨⟨hsay, hinvar, hreturn, hne⟩, hvalue⟩, optionalSemicolon_spelled hafter⟩

/-- A statement and then the others. -/
theorem body_forms {others : Parse κ (List Statement)}
    (hothers : FormsAlways recorded (Statement.FormedEach recorded) others)
    (h : Cursor.Spelled cursor) (hne : (Cursor.current cursor).kind ≠ .eof) :
    Forms recorded (Statement.FormedEach recorded)
      (do
        let first ← statement expression
        advance
        return first.toList ++ (← others)) cursor := by
  simp only [Forms, assuming_bind, assuming_advance, assuming_pure]
  refine (statement_forms hexpression h hne).mono ?_
  rintro first after₁ ⟨hfirst, hafter₁⟩
  refine (hothers hafter₁.advance).mono ?_
  rintro rest after₂ ⟨hrest, hafter₂⟩
  refine ⟨?_, hafter₂⟩
  rw [Statement.FormedEach, Statement.nodesOfEach_append, allFormed_append]
  exact ⟨hfirst, hrest⟩

end statements

omit [LawfulCursor κ] in
theorem block_forms {statements : Parse κ (List Statement)}
    (hstatements : FormsAlways recorded (Statement.FormedEach recorded) statements) :
    FormsBlocks recorded (block statements) := by
  intro cursor h hk
  simp only [Forms, block, assuming_bind, assuming_current, assuming_advance, assuming_pure,
    Block.formed_mk]
  refine (hstatements h.advance).mono ?_
  rintro body after ⟨hbody, hafter⟩
  exact ⟨⟨hk, hbody⟩, hafter⟩

/-! ## The forms tied together -/

/-- What the parsers of one fuel form. -/
structure Formation (κ : Type) [Cursor κ] (recorded : Diagnostic → Prop) (fuel : Nat) : Prop where
  /-- Expressions. -/
  expression (floor : Precedence) :
    FormsAlways recorded (Expression.Formed recorded)
      (expression fuel floor : Parse κ Expression)
  /-- What an expression goes on with. -/
  climb (floor : Precedence) {left : Expression} : left.Formed recorded →
    FormsAlways recorded (Expression.Formed recorded)
      (climb fuel floor left : Parse κ Expression)
  /-- Further arguments. -/
  moreArguments :
    FormsAlways recorded (Expression.FormedEach recorded)
      (moreArguments fuel : Parse κ (List Expression))
  /-- Statements of a block. -/
  blockStatements :
    FormsAlways recorded (Statement.FormedEach recorded)
      (blockStatements fuel : Parse κ (List Statement))

omit [LawfulCursor κ] in
theorem formation_zero : Formation κ recorded 0 where
  expression _ cursor h := reject_forms _ h
  climb _ left hleft cursor h := by
    rw [Forms, Parse.climb, assuming_pure]
    exact ⟨hleft, h⟩
  moreArguments cursor h := by
    rw [Forms, Parse.moreArguments, assuming_pure]
    exact ⟨allFormed_nil, h⟩
  blockStatements cursor h := by
    rw [Forms, Parse.blockStatements, assuming_pure]
    exact ⟨allFormed_nil, h⟩

section succ

variable {fuel : Nat} (hforms : Formation κ recorded fuel)

include hforms

theorem expression_forms (floor : Precedence) :
    FormsAlways recorded (Expression.Formed recorded)
      (expression (fuel + 1) floor : Parse κ Expression) := by
  intro cursor h
  have hopening := opening?_forms fuel hforms.expression (block_forms hforms.blockStatements) h
  simp only [Forms, expression, assuming_bind, assuming_position, assuming_record_expression,
    assuming_current]
  -- the form is named so that the case split does not open it
  generalize opening? (expression fuel : Precedence → Parse κ Expression) (parameters fuel)
    (block (blockStatements fuel)) (Cursor.current cursor).kind = form at hopening ⊢
  cases form with
  | none => exact reject_forms _ h
  | some opening =>
    show Assuming recorded (opening >>= climb fuel floor) cursor _
    rw [assuming_bind]
    refine hopening.mono ?_
    rintro left after ⟨hleft, hafter⟩
    exact hforms.climb floor hleft hafter

theorem climb_forms (floor : Precedence) {left : Expression} (hleft : left.Formed recorded) :
    FormsAlways recorded (Expression.Formed recorded)
      (climb (fuel + 1) floor left : Parse κ Expression) := by
  intro cursor h
  rw [Forms, climb, assuming_bind, assuming_peek, ← LawfulCursor.current_advance cursor]
  split
  next hlt =>
    simp only [assuming_bind, assuming_advance]
    refine (continuation_forms hforms.expression hforms.moreArguments hleft h.advance hlt).mono ?_
    rintro folded after ⟨hfolded, hafter⟩
    exact hforms.climb floor hfolded hafter
  next =>
    rw [assuming_pure]
    exact ⟨hleft, h⟩

omit [LawfulCursor κ] in
theorem moreArguments_forms :
    FormsAlways recorded (Expression.FormedEach recorded)
      (moreArguments (fuel + 1) : Parse κ (List Expression)) := by
  intro cursor h
  rw [Forms, moreArguments, assuming_bind, assuming_peek]
  split
  · simp only [assuming_bind, assuming_advance, assuming_pure]
    refine (hforms.expression _ h.advance.advance).mono ?_
    rintro next after₁ ⟨hnext, hafter₁⟩
    refine (hforms.moreArguments hafter₁).mono ?_
    rintro others after₂ ⟨hothers, hafter₂⟩
    exact ⟨Expression.formedEach_cons.mpr ⟨hnext, hothers⟩, hafter₂⟩
  · rw [assuming_pure]
    exact ⟨allFormed_nil, h⟩

theorem blockStatements_forms :
    FormsAlways recorded (Statement.FormedEach recorded)
      (blockStatements (fuel + 1) : Parse κ (List Statement)) := by
  intro cursor h
  rw [Forms, blockStatements, assuming_bind, assuming_current]
  split
  next =>
    rw [assuming_pure]
    exact ⟨allFormed_nil, h⟩
  next =>
    -- the error node of a block that is never closed is not kept
    simp only [assuming_bind, assuming_reject, assuming_pure]
    exact fun _ => ⟨allFormed_nil, h⟩
  next hne => exact body_forms (hforms.expression _) hforms.blockStatements h hne

end succ

/-- The parsers form what they should, whatever their fuel. -/
theorem formation (fuel : Nat) : Formation κ recorded fuel := by
  induction fuel with
  | zero => exact formation_zero
  | succ fuel ih =>
    exact ⟨expression_forms ih, climb_forms ih, moreArguments_forms ih, blockStatements_forms ih⟩

theorem statements_forms (fuel : Nat) :
    FormsAlways recorded (Statement.FormedEach recorded)
      (statements fuel : Parse κ (List Statement)) := by
  induction fuel with
  | zero =>
    intro cursor h
    rw [Forms, statements, assuming_pure]
    exact ⟨allFormed_nil, h⟩
  | succ fuel ih =>
    intro cursor h
    rw [Forms, statements, assuming_bind, assuming_current]
    split
    next =>
      rw [assuming_pure]
      exact ⟨allFormed_nil, h⟩
    next hne => exact body_forms ((formation fuel).expression _) ih h hne

end Parse

/-- All nodes of a parsed tree are as they should be, with what was recorded for it. -/
theorem parse_formed (source : String) :
    AllFormed (· ∈ (parse source).diagnostics) (parse source).program.nodes := by
  have hforms : Parse.Forms (· ∈ (parse source).diagnostics) (Statement.FormedEach _)
      (Parse.statements (Cursor.ahead (Window.ofSource source) + 3)) (Window.ofSource source) :=
    Parse.statements_forms _ (Window.ofSource_spelled source)
  have hformed := (hforms fun found hfound => by rwa [parse, diagnostics_parseFrom]).1
  rw [← statements_parseFrom] at hformed
  exact Program.allFormed_nodes.mpr hformed

end SayLang
