import SayLang.Integer
import SayLang.Token

/-!
# Derivations of the grammar

The grammar of the language as it is written down for people:

    program      ::=  statement* EOF
    statement    ::=  ("say" | "invar") IDENTIFIER "=" expression ";"?
                   |  "return" expression? ";"?
                   |  expression ";"?
    block        ::=  "{" statement* "}"
    expression   ::=  opening continuation*
    opening      ::=  IDENTIFIER | NUMBER | "true" | "false" | ("!" | "-") expression
                   |  "(" expression ")"
                   |  "if" "(" expression ")" block ("else" block)?
                   |  "fun" "(" (IDENTIFIER ("," IDENTIFIER)*)? ")" block
    continuation ::=  ("==" | "!=" | "<" | ">" | "+" | "-" | "*" | "/") expression
                   |  "(" (expression ("," expression)*)? ")"

Each symbol is a relation between two lists of tokens, and each production a rule of it:
`Grammar.Expression tokens rest` says that `tokens` start with an expression behind which `rest` is
left. Two conditions stand beside the productions. The digits of a number denote a value in range,
and a `return` without a value has a semicolon, a closing brace or the end of input behind it.

The grammar is ambiguous: `a - b` is one statement or two, and so is `f (x)`. It says nothing of
precedence.
-/

namespace SayLang.Grammar

/-! ## Tokens -/

/-- A number is a run of digits for a value in range, which is one of at most `2 ^ 63 - 1`. -/
def IsNumber (token : Token) : Prop :=
  token.kind = .number ∧ token.literal.toList ≠ [] ∧ token.literal.toList.all Char.isDigit = true ∧
    Nat.ofDigitChars 10 token.literal.toList 0 ≤ 9223372036854775807

/-- Digits denote a value in range exactly when the token is a number of the grammar. -/
theorem isNumber_iff {token : Token} (hkind : token.kind = .number) :
    IsNumber token ↔ (Integer.ofDigits? token.literal).isSome = true := by
  rw [Option.isSome_iff_exists]
  constructor
  · intro h
    obtain ⟨_, hne, hdigits, hle⟩ := h
    exact ⟨⟨Nat.ofDigitChars 10 token.literal.toList 0, by omega, by omega⟩,
      Integer.ofDigits?_eq_some_iff.mpr ⟨hne, hdigits, rfl⟩⟩
  · intro h
    obtain ⟨value, hvalue⟩ := h
    obtain ⟨hne, hdigits, hval⟩ := Integer.ofDigits?_eq_some_iff.mp hvalue
    have hle := value.le
    exact ⟨hkind, hne, hdigits, by omega⟩

/-- The operators that stand between two operands. -/
def IsBinary (kind : Kind) : Prop :=
  kind = .equalEqual ∨ kind = .bangEqual ∨ kind = .less ∨ kind = .greater ∨
    kind = .plus ∨ kind = .minus ∨ kind = .asterisk ∨ kind = .slash

instance (kind : Kind) : Decidable (IsBinary kind) := inferInstanceAs (Decidable (_ ∨ _))

/-- What may stand behind a `return` without a value. -/
def EndsReturn : List Token → Prop
  | [] => False
  | token :: _ => token.kind = .semicolon ∨ token.kind = .rightBrace ∨ token.kind = .eof

/-- The optional semicolon behind a statement. -/
inductive Semicolon : List Token → List Token → Prop where
  | absent {rest : List Token} : Semicolon rest rest
  | present {sign : Token} {rest : List Token} :
      sign.kind = .semicolon → Semicolon (sign :: rest) rest

/-! ## Parameters -/

/-- Further names, each after a comma. -/
inductive MoreNames : List Token → List Token → Prop where
  | none {rest : List Token} : MoreNames rest rest
  | cons {comma name : Token} {tokens rest : List Token} :
      comma.kind = .comma → name.kind = .identifier → MoreNames tokens rest →
      MoreNames (comma :: name :: tokens) rest

/-- Names separated by commas, or none. -/
inductive Names : List Token → List Token → Prop where
  | none {rest : List Token} : Names rest rest
  | cons {name : Token} {tokens rest : List Token} :
      name.kind = .identifier → MoreNames tokens rest → Names (name :: tokens) rest

/-! ## Statements and expressions -/

mutual

/-- Statements one after the other. -/
inductive Statements : List Token → List Token → Prop where
  | none {rest : List Token} : Statements rest rest
  | cons {tokens middle rest : List Token} :
      Statement tokens middle → Statements middle rest → Statements tokens rest

/-- A statement. -/
inductive Statement : List Token → List Token → Prop where
  | declaration {word name sign : Token} {tokens middle rest : List Token} :
      word.kind = .sayWord ∨ word.kind = .invarWord → name.kind = .identifier →
      sign.kind = .assign → Expression tokens middle → Semicolon middle rest →
      Statement (word :: name :: sign :: tokens) rest
  | returnOf {word : Token} {tokens middle rest : List Token} :
      word.kind = .returnWord → Expression tokens middle → Semicolon middle rest →
      Statement (word :: tokens) rest
  | bareReturn {word : Token} {tokens rest : List Token} :
      word.kind = .returnWord → EndsReturn tokens → Semicolon tokens rest →
      Statement (word :: tokens) rest
  | expression {tokens middle rest : List Token} :
      Expression tokens middle → Semicolon middle rest → Statement tokens rest

/-- Statements in braces. -/
inductive Block : List Token → List Token → Prop where
  | mk {left right : Token} {tokens rest : List Token} :
      left.kind = .leftBrace → Statements tokens (right :: rest) → right.kind = .rightBrace →
      Block (left :: tokens) rest

/-- An expression. -/
inductive Expression : List Token → List Token → Prop where
  | mk {tokens middle rest : List Token} :
      Opening tokens middle → Continuations middle rest → Expression tokens rest

/-- What an expression starts with. -/
inductive Opening : List Token → List Token → Prop where
  | identifier {token : Token} {rest : List Token} :
      token.kind = .identifier → Opening (token :: rest) rest
  | number {token : Token} {rest : List Token} : IsNumber token → Opening (token :: rest) rest
  | boolean {token : Token} {rest : List Token} :
      token.kind = .trueWord ∨ token.kind = .falseWord → Opening (token :: rest) rest
  | unary {operator : Token} {tokens rest : List Token} :
      operator.kind = .bang ∨ operator.kind = .minus → Expression tokens rest →
      Opening (operator :: tokens) rest
  | group {left right : Token} {tokens rest : List Token} :
      left.kind = .leftParen → Expression tokens (right :: rest) → right.kind = .rightParen →
      Opening (left :: tokens) rest
  | conditional {word left right : Token} {tokens middle behind rest : List Token} :
      word.kind = .ifWord → left.kind = .leftParen → Expression tokens (right :: middle) →
      right.kind = .rightParen → Block middle behind → Alternative behind rest →
      Opening (word :: left :: tokens) rest
  | function {word left right : Token} {tokens middle rest : List Token} :
      word.kind = .funWord → left.kind = .leftParen → Names tokens (right :: middle) →
      right.kind = .rightParen → Block middle rest → Opening (word :: left :: tokens) rest

/-- The optional other branch of a conditional. -/
inductive Alternative : List Token → List Token → Prop where
  | absent {rest : List Token} : Alternative rest rest
  | present {word : Token} {tokens rest : List Token} :
      word.kind = .elseWord → Block tokens rest → Alternative (word :: tokens) rest

/-- Continuations one after the other. -/
inductive Continuations : List Token → List Token → Prop where
  | none {rest : List Token} : Continuations rest rest
  | cons {tokens middle rest : List Token} :
      Continuation tokens middle → Continuations middle rest → Continuations tokens rest

/-- What an expression goes on with. -/
inductive Continuation : List Token → List Token → Prop where
  | binary {operator : Token} {tokens rest : List Token} :
      IsBinary operator.kind → Expression tokens rest → Continuation (operator :: tokens) rest
  | call {left right : Token} {tokens rest : List Token} :
      left.kind = .leftParen → Arguments tokens (right :: rest) → right.kind = .rightParen →
      Continuation (left :: tokens) rest

/-- Expressions separated by commas, or none. -/
inductive Arguments : List Token → List Token → Prop where
  | none {rest : List Token} : Arguments rest rest
  | cons {tokens middle rest : List Token} :
      Expression tokens middle → MoreArguments middle rest → Arguments tokens rest

/-- Further expressions, each after a comma. -/
inductive MoreArguments : List Token → List Token → Prop where
  | none {rest : List Token} : MoreArguments rest rest
  | cons {comma : Token} {tokens middle rest : List Token} :
      comma.kind = .comma → Expression tokens middle → MoreArguments middle rest →
      MoreArguments (comma :: tokens) rest

end

/-- A whole program: statements and the end of input. -/
inductive Program : List Token → Prop where
  | mk {tokens : List Token} {last : Token} :
      Statements tokens [last] → last.kind = .eof → Program tokens

end SayLang.Grammar
