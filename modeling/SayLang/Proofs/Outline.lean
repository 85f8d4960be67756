import SayLang.Proofs.Formation
import SayLang.Proofs.Meaning
import SayLang.Proofs.SExpression
import SayLang.Syntax.Render

/-!
# Trees without their tokens

`forget` takes the tokens out of a tree. What is left are the forms, the kinds of operators and of
declarations, names, values, the parts that are there, and the messages of errors. That is all that
evaluation asks for.

> `Expression.meaning_forget`: a tree that the parser formed means the same without its tokens.

The rendering of a tree is an S-expression: each form is a list with its head in front.

> `Expression.chars_sexp`: the rendering is what this S-expression is written with.
-/

namespace SayLang

/-- A token without anything to it. -/
def Token.blank : Token := ⟨.eof, "", 0⟩

/-- A token that is only its kind. -/
def Kind.bare (kind : Kind) : Token := ⟨kind, kind.text, 0⟩

/-- A name without its token. -/
def Name.forget (name : Name) : Name := ⟨.blank, name.text⟩

mutual

/-- An expression without its tokens. Operators stay what they are. -/
def Expression.forget : Expression → Expression
  | .identifier name => .identifier name.forget
  | .number _ value => .number .blank value
  | .boolean _ value => .boolean .blank value
  | .unary operator operand => .unary operator.kind.bare operand.forget
  | .binary left operator right => .binary left.forget operator.kind.bare right.forget
  | .ifThen _ condition consequence => .ifThen .blank condition.forget consequence.forget
  | .ifElse _ condition consequence alternative =>
    .ifElse .blank condition.forget consequence.forget alternative.forget
  | .function _ parameters body => .function .blank (parameters.map Name.forget) body.forget
  | .call _ callee arguments => .call .blank callee.forget (Expression.forgetEach arguments)
  | .error _ message => .error .blank message

/-- Each expression of a list. -/
def Expression.forgetEach : List Expression → List Expression
  | [] => []
  | expression :: rest => expression.forget :: Expression.forgetEach rest

/-- A statement without its tokens. The two kinds of declarations stay what they are. -/
def Statement.forget : Statement → Statement
  | .expression _ value => .expression .blank value.forget
  | .say token name value => .say token.kind.bare name.forget value.forget
  | .bareReturn _ => .bareReturn .blank
  | .returnOf _ value => .returnOf .blank value.forget
  | .block body => .block body.forget

/-- Each statement of a list. -/
def Statement.forgetEach : List Statement → List Statement
  | [] => []
  | statement :: rest => statement.forget :: Statement.forgetEach rest

/-- A block without its tokens. -/
def Block.forget : Block → Block
  | .mk _ statements => .mk .blank (Statement.forgetEach statements)

end

/-- A program without its tokens. -/
def Program.forget (program : Program) : Program := ⟨Statement.forgetEach program.statements⟩

/-! ## Nothing else is asked for -/

/-- Of an operator only its kind and its text count. -/
theorem Value.binary_bare {operator : Token} (h : operator.literal = operator.kind.text)
    (left right : Value) : binary operator.kind.bare left right = binary operator left right := by
  obtain ⟨kind, literal, line⟩ := operator
  obtain rfl : literal = kind.text := h
  rfl

section meaning

variable {recorded : Diagnostic → Prop}

mutual

/-- What the parser formed means the same without its tokens. -/
theorem Expression.meaning_forget : ∀ {e : Expression}, e.Formed recorded →
    e.forget.meaning = e.meaning
  | .number _ _, _ | .boolean _ _, _ | .error _ _, _ | .identifier _, _ | .function _ _ _, _
  | .call _ _ _, _ => rfl
  | .unary _ operand, h => by
    rw [Expression.formed_unary] at h
    rw [Expression.forget, Expression.meaning, Expression.meaning, Expression.meaning_forget h.2]
    rfl
  | .binary left operator right, h => by
    rw [Expression.formed_binary] at h
    obtain ⟨⟨-, hliteral⟩, hleft, hright⟩ := h
    rw [Expression.forget, Expression.meaning, Expression.meaning, Expression.meaning_forget hleft,
      Expression.meaning_forget hright, Value.binary_bare hliteral]
  | .ifThen _ condition consequence, h => by
    rw [Expression.formed_ifThen] at h
    obtain ⟨-, hcondition, hconsequence⟩ := h
    rw [Expression.forget, Expression.meaning, Expression.meaning,
      Expression.meaning_forget hcondition, Block.meaning_forget hconsequence]
  | .ifElse _ condition consequence alternative, h => by
    rw [Expression.formed_ifElse] at h
    obtain ⟨-, hcondition, hconsequence, halternative⟩ := h
    rw [Expression.forget, Expression.meaning, Expression.meaning,
      Expression.meaning_forget hcondition, Block.meaning_forget hconsequence,
      Block.meaning_forget halternative]

theorem Statement.meaning_forget : ∀ {s : Statement}, s.Formed recorded →
    s.forget.meaning = s.meaning
  | .expression _ _, h => by
    rw [Statement.formed_expression] at h
    exact Expression.meaning_forget h.2
  | .block _, h => by
    rw [Statement.formed_block] at h
    exact Block.meaning_forget h.2
  | .say _ _ _, _ | .bareReturn _, _ | .returnOf _ _, _ => rfl

theorem Statement.meaningOfEach_forget : ∀ {statements : List Statement},
    Statement.FormedEach recorded statements →
      Statement.meaningOfEach (Statement.forgetEach statements) =
        Statement.meaningOfEach statements
  | [], _ => rfl
  | _ :: _, h => by
    rw [Statement.formedEach_cons] at h
    rw [Statement.forgetEach, Statement.meaningOfEach, Statement.meaningOfEach,
      Statement.meaning_forget h.1, Statement.meaningOfEach_forget h.2]

theorem Block.meaning_forget : ∀ {b : Block}, b.Formed recorded → b.forget.meaning = b.meaning
  | .mk _ _, h => by
    rw [Block.formed_mk] at h
    rw [Block.forget, Block.meaning, Block.meaning, Statement.meaningOfEach_forget h.2]

end

theorem Program.meaning_forget {program : Program} (h : AllFormed recorded program.nodes) :
    program.forget.meaning = program.meaning := by
  rw [Program.allFormed_nodes] at h
  rw [Program.meaning, Program.forget, Statement.meaningOfEach_forget h]
  rfl

end meaning

/-! ## Renderings as S-expressions -/

/-- A list with a head. -/
def Sexp.form (head : String) (items : List Sexp) : Sexp := .list .round (.atom head :: items)

/-- The S-expression of the names of parameters. -/
def namesSexp (names : List Name) : Sexp := .list .round (names.map fun name => .atom name.text)

mutual

/-- The S-expression that an expression is rendered as. -/
def Expression.sexp : Expression → Sexp
  | .identifier name => .atom name.text
  | .number _ value => .atom value.text
  | .boolean _ value => .atom (if value then "true" else "false")
  | .unary operator operand => .form operator.literal [operand.sexp]
  | .binary left operator right => .form operator.literal [left.sexp, right.sexp]
  | .ifThen _ condition consequence => .form "if" [condition.sexp, consequence.sexp]
  | .ifElse _ condition consequence alternative =>
    .form "if" [condition.sexp, consequence.sexp, .atom "else", alternative.sexp]
  | .function _ parameters body => .form "fun" [namesSexp parameters, body.sexp]
  | .call _ callee arguments => .form "call" (callee.sexp :: Expression.sexpOfEach arguments)
  | .error _ message => .form "error" [.quoted message]

/-- Those of the expressions of a list. -/
def Expression.sexpOfEach : List Expression → List Sexp
  | [] => []
  | expression :: rest => expression.sexp :: Expression.sexpOfEach rest

/-- The S-expression that a statement is rendered as. -/
def Statement.sexp : Statement → Sexp
  | .expression _ value => value.sexp
  | .say token name value => .form token.literal [.atom name.text, value.sexp]
  | .bareReturn _ => .form "return" []
  | .returnOf _ value => .form "return" [value.sexp]
  | .block body => body.sexp

/-- Those of the statements of a list. -/
def Statement.sexpOfEach : List Statement → List Sexp
  | [] => []
  | statement :: rest => statement.sexp :: Statement.sexpOfEach rest

/-- The S-expression that a block is rendered as. -/
def Block.sexp : Block → Sexp
  | .mk _ statements => .list .curly (Statement.sexpOfEach statements)

end

theorem Sexp.chars_form (head : String) (items : List Sexp) :
    (form head items).chars = '(' :: (head.toList ++ (trailing ' ' items ++ [')'])) := by
  rw [form, chars, joined, chars, List.append_assoc]
  rfl

/-- Texts with a separator between them are the S-expressions with the separator between them. -/
theorem Sexp.joined_of_map_chars {separator : Char} {items : List Sexp} {texts : List String}
    (h : items.map chars = texts.map String.toList) :
    joined separator items = ((String.singleton separator).intercalate texts).toList := by
  rw [joined_eq_intercalate, h, String.toList_intercalate, String.toList_singleton]

theorem Sexp.chars_namesSexp (names : List Name) :
    (namesSexp names).chars = ("(" ++ spaced (names.map Name.text) ++ ")").toList := by
  have hmap : (names.map fun name => Sexp.atom name.text).map chars =
      (names.map Name.text).map String.toList := by
    rw [List.map_map, List.map_map]
    refine List.map_congr_left fun name _ => ?_
    show (Sexp.atom name.text).chars = _
    rw [chars]
    rfl
  rw [namesSexp, chars, joined_of_map_chars hmap]
  simp [spaced, Bracket.opening, Bracket.closing]

mutual

/-- The rendering of an expression is what its S-expression is written with. -/
theorem Expression.chars_sexp : ∀ e : Expression, e.sexp.chars = e.render.toList
  | .identifier _ | .number _ _ | .boolean _ _ => by
    rw [Expression.sexp, Sexp.chars, Expression.render]
  | .unary operator operand => by
    rw [Expression.sexp, Sexp.chars_form, Expression.render]
    simp [Sexp.trailing, operand.chars_sexp]
  | .binary left operator right => by
    rw [Expression.sexp, Sexp.chars_form, Expression.render]
    simp [Sexp.trailing, left.chars_sexp, right.chars_sexp]
  | .ifThen _ condition consequence => by
    rw [Expression.sexp, Sexp.chars_form, Expression.render]
    simp [Sexp.trailing, condition.chars_sexp, consequence.chars_sexp]
  | .ifElse _ condition consequence alternative => by
    rw [Expression.sexp, Sexp.chars_form, Expression.render]
    simp [Sexp.trailing, Sexp.chars, condition.chars_sexp, consequence.chars_sexp,
      alternative.chars_sexp]
  | .function _ parameters body => by
    rw [Expression.sexp, Sexp.chars_form, Expression.render]
    simp [Sexp.trailing, Sexp.chars_namesSexp, body.chars_sexp]
  | .call _ callee arguments => by
    have hmap : (callee.sexp :: Expression.sexpOfEach arguments).map Sexp.chars =
        (callee.render :: Expression.renderEach arguments).map String.toList := by
      rw [List.map_cons, List.map_cons, callee.chars_sexp, Expression.map_chars_sexpOfEach]
    rw [Expression.sexp, Expression.render, spaced, Sexp.chars_form, Sexp.trailing,
      ← Sexp.joined_cons, Sexp.joined_of_map_chars hmap]
    simp
  | .error _ message => by
    rw [Expression.sexp, Sexp.chars_form, Expression.render]
    simp [Sexp.trailing, Sexp.chars]

theorem Expression.map_chars_sexpOfEach : ∀ es : List Expression,
    (Expression.sexpOfEach es).map Sexp.chars = (Expression.renderEach es).map String.toList
  | [] => rfl
  | e :: rest => by
    rw [Expression.sexpOfEach, Expression.renderEach, List.map_cons, List.map_cons, e.chars_sexp,
      Expression.map_chars_sexpOfEach rest]

theorem Statement.chars_sexp : ∀ s : Statement, s.sexp.chars = s.render.toList
  | .expression _ value => value.chars_sexp
  | .say token name value => by
    rw [Statement.sexp, Sexp.chars_form, Statement.render]
    simp [Sexp.trailing, Sexp.chars, value.chars_sexp]
  | .bareReturn _ => by
    rw [Statement.sexp, Sexp.chars_form, Statement.render]
    simp [Sexp.trailing]
  | .returnOf _ value => by
    rw [Statement.sexp, Sexp.chars_form, Statement.render]
    simp [Sexp.trailing, value.chars_sexp]
  | .block body => body.chars_sexp

theorem Statement.map_chars_sexpOfEach : ∀ ss : List Statement,
    (Statement.sexpOfEach ss).map Sexp.chars = (Statement.renderEach ss).map String.toList
  | [] => rfl
  | s :: rest => by
    rw [Statement.sexpOfEach, Statement.renderEach, List.map_cons, List.map_cons, s.chars_sexp,
      Statement.map_chars_sexpOfEach rest]

theorem Block.chars_sexp : ∀ b : Block, b.sexp.chars = b.render.toList
  | .mk _ statements => by
    rw [Block.sexp, Block.render, spaced, Sexp.chars,
      Sexp.joined_of_map_chars (Statement.map_chars_sexpOfEach statements)]
    simp [Bracket.opening, Bracket.closing]

end

/-- The rendering of a program: the S-expressions of its statements, each on a line. -/
theorem Program.joined_sexp (program : Program) :
    Sexp.joined '\n' (Statement.sexpOfEach program.statements) = program.render.toList := by
  have hmap := Statement.map_chars_sexpOfEach program.statements
  rw [Statement.renderEach_eq_map] at hmap
  rw [Sexp.joined_of_map_chars hmap]
  rfl

end SayLang
