import SayLang.Diagnostic
import SayLang.Proofs.Meaning

/-!
# Changing what does not matter in tokens

A `Relabelling` changes tokens in what parsing only carries along: the lines, the spelling of
numbers, the names, the characters that the language does not know. Kinds stay, numbers keep their
value, and every other token keeps its text. Trees and diagnostics are relabelled with their tokens.

> `Expression.meaning_relabel`: a tree means the same after that, and so do statements and blocks.
-/

namespace SayLang

/-- A change of tokens that leaves alone whatever parsing and evaluation ask of a token. -/
structure Relabelling where
  /-- What a token becomes. -/
  token : Token → Token
  /-- What its line becomes. -/
  line : Nat → Nat
  /-- What a name becomes. -/
  name : String → String
  /-- Kinds stay. -/
  kind_eq (t : Token) : (token t).kind = t.kind
  /-- Lines change as lines do. -/
  line_eq (t : Token) : (token t).line = line t.line
  /-- Identifiers change as names do. -/
  name_eq {t : Token} : t.kind = .identifier → (token t).literal = name t.literal
  /-- Numbers keep their value. -/
  value_eq {t : Token} : t.kind = .number →
    Integer.ofDigits? (token t).literal = Integer.ofDigits? t.literal
  /-- Numbers out of range keep their digits, which are reported. -/
  digits_eq {t : Token} : t.kind = .number → Integer.ofDigits? t.literal = none →
    (token t).literal = t.literal
  /-- All other tokens keep their text, unless the language does not know it. -/
  literal_eq {t : Token} : t.kind ≠ .identifier → t.kind ≠ .number → t.kind ≠ .illegal →
    (token t).literal = t.literal

/-- All lines further down by a number of lines. -/
def Relabelling.shift (lines : Nat) : Relabelling where
  token t := { t with line := t.line + lines }
  line n := n + lines
  name text := text
  kind_eq _ := rfl
  line_eq _ := rfl
  name_eq _ := rfl
  value_eq _ := rfl
  digits_eq _ _ := rfl
  literal_eq _ _ _ := rfl

variable (r : Relabelling)

/-- A diagnostic about a token relabelled. -/
def Diagnostic.relabel (found : Diagnostic) : Diagnostic := ⟨r.line found.line, found.problem⟩

/-- A name with its token relabelled. -/
def Name.relabel (name : Name) : Name := ⟨r.token name.token, r.name name.text⟩

theorem Name.relabel_ofToken {token : Token} (h : token.kind = .identifier) :
    (Name.ofToken token).relabel r = .ofToken (r.token token) := by
  rw [Name.relabel, Name.ofToken, Name.ofToken, r.name_eq h]

mutual

/-- An expression with all its tokens relabelled. -/
def Expression.relabel : Expression → Expression
  | .identifier name => .identifier (name.relabel r)
  | .number token value => .number (r.token token) value
  | .boolean token value => .boolean (r.token token) value
  | .unary operator operand => .unary (r.token operator) operand.relabel
  | .binary left operator right => .binary left.relabel (r.token operator) right.relabel
  | .ifThen token condition consequence =>
    .ifThen (r.token token) condition.relabel consequence.relabel
  | .ifElse token condition consequence alternative =>
    .ifElse (r.token token) condition.relabel consequence.relabel alternative.relabel
  | .function token parameters body =>
    .function (r.token token) (parameters.map (Name.relabel r)) body.relabel
  | .call token callee arguments =>
    .call (r.token token) callee.relabel (Expression.relabelEach arguments)
  | .error token message => .error (r.token token) message

/-- Each expression of a list. -/
def Expression.relabelEach : List Expression → List Expression
  | [] => []
  | expression :: rest => expression.relabel :: Expression.relabelEach rest

/-- A statement with all its tokens relabelled. -/
def Statement.relabel : Statement → Statement
  | .expression token value => .expression (r.token token) value.relabel
  | .say token name value => .say (r.token token) (name.relabel r) value.relabel
  | .bareReturn token => .bareReturn (r.token token)
  | .returnOf token value => .returnOf (r.token token) value.relabel
  | .block body => .block body.relabel

/-- Each statement of a list. -/
def Statement.relabelEach : List Statement → List Statement
  | [] => []
  | statement :: rest => statement.relabel :: Statement.relabelEach rest

/-- A block with all its tokens relabelled. -/
def Block.relabel : Block → Block
  | .mk token statements => .mk (r.token token) (Statement.relabelEach statements)

end

/-- A program with all its tokens relabelled. -/
def Program.relabel (program : Program) : Program := ⟨Statement.relabelEach r program.statements⟩

theorem Statement.relabelEach_append (first second : List Statement) :
    relabelEach r (first ++ second) = relabelEach r first ++ relabelEach r second := by
  induction first with
  | nil => simp [relabelEach]
  | cons _ _ ih => simp [relabelEach, ih]

/-! ## Nothing else depends on it -/

theorem Value.unary_relabel (operator : Token) (operand : Value) :
    unary (r.token operator) operand = unary operator operand := by
  unfold unary
  rw [r.kind_eq]

theorem Value.arithmetic_relabel (operator : Token) (l r' : Integer) :
    arithmetic (r.token operator) l r' = arithmetic operator l r' := by
  unfold arithmetic
  rw [r.kind_eq]
  cases hk : operator.kind with
  | plus | minus | asterisk | slash =>
    -- the text of the operator may be quoted
    rw [r.literal_eq (by simp [hk]) (by simp [hk]) (by simp [hk])]
  | _ => rfl

theorem Value.binary_relabel (operator : Token) (left right : Value) :
    binary (r.token operator) left right = binary operator left right := by
  unfold binary
  rw [r.kind_eq]
  cases left with
  | integer n =>
    cases right with
    | integer m => exact arithmetic_relabel r operator n m
    | _ => rfl
  | _ => rfl

mutual

theorem Expression.meaning_relabel : ∀ e : Expression, (e.relabel r).meaning = e.meaning
  | .number _ _ | .boolean _ _ | .error _ _ | .identifier _ | .function _ _ _ | .call _ _ _ => rfl
  | .unary operator operand => by
    rw [Expression.relabel, Expression.meaning, Expression.meaning, operand.meaning_relabel,
      Value.unary_relabel]
  | .binary left operator right => by
    rw [Expression.relabel, Expression.meaning, Expression.meaning, left.meaning_relabel,
      right.meaning_relabel, Value.binary_relabel]
  | .ifThen _ condition consequence => by
    rw [Expression.relabel, Expression.meaning, Expression.meaning, condition.meaning_relabel,
      consequence.meaning_relabel]
  | .ifElse _ condition consequence alternative => by
    rw [Expression.relabel, Expression.meaning, Expression.meaning, condition.meaning_relabel,
      consequence.meaning_relabel, alternative.meaning_relabel]

theorem Statement.meaning_relabel : ∀ s : Statement, (s.relabel r).meaning = s.meaning
  | .expression _ value => value.meaning_relabel
  | .block body => body.meaning_relabel
  | .say _ _ _ | .bareReturn _ | .returnOf _ _ => rfl

theorem Statement.meaningOfEach_relabel : ∀ statements : List Statement,
    Statement.meaningOfEach (Statement.relabelEach r statements) =
      Statement.meaningOfEach statements
  | [] => rfl
  | statement :: rest => by
    rw [Statement.relabelEach, Statement.meaningOfEach, Statement.meaningOfEach,
      statement.meaning_relabel, Statement.meaningOfEach_relabel rest]

theorem Block.meaning_relabel : ∀ b : Block, (b.relabel r).meaning = b.meaning
  | .mk _ statements => by
    rw [Block.relabel, Block.meaning, Block.meaning, Statement.meaningOfEach_relabel statements]

end

end SayLang
