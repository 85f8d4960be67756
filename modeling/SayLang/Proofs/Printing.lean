import SayLang.Precedence
import SayLang.Proofs.Derivation
import SayLang.Proofs.Recognizer
import SayLang.Syntax

/-!
# Printing a tree to tokens

A tree can be printed in many ways. Parentheses are needed where the place of an expression asks for
them, and any number of them may stand around any other expression; a statement may end with a
semicolon or without one. `PrintsExpression place e tokens q rest` says that `e` in its place is
printed as what `tokens` have in front of `rest`. The tree `q` is `e` again with the tokens it is
printed with, so the two differ in lines, in the spelling of numbers, and in the token by which a
statement of an expression is known.

> `PrintsProgram.erase_eq`: they differ in nothing else.

Only trees of a shape that is read are printed. There is no error node in them and no block in the
place of a statement, and every token is of a kind that its node is read from.
-/

namespace SayLang

/-! ## Places -/

/-- The place of an expression in a tree. -/
inductive Place where
  /-- Where a whole expression may stand. -/
  | whole
  /-- In front of an operator. -/
  | leftOf (operator : Kind)
  /-- Behind an operator that has a left operand. -/
  | rightOf (operator : Kind)
  /-- Behind an operator that has none. -/
  | operand
  /-- In front of the arguments of a call. -/
  | callee

/-- An expression needs no parentheses in its place. Operators of one precedence group to the left,
so an operation of the same precedence needs them only behind the operator. -/
def Place.AllowsBare : Place → Expression → Prop
  | leftOf kind, .binary _ operator _ => ¬ operator.kind.precedence < kind.precedence
  | rightOf kind, .binary _ operator _ => ¬ operator.kind.precedence ≤ kind.precedence
  | operand, .binary _ _ _ => False
  | callee, .binary _ _ _ => False
  | callee, .unary _ _ => False
  | _, _ => True

/-! ## Printings -/

/-- A statement ends with a semicolon, or without one in front of a token of an allowed kind. -/
inductive PrintsEnd (allowed : Kind → Prop) : List Token → List Token → Prop where
  | sign {sign : Token} {rest : List Token} :
      sign.kind = .semicolon → PrintsEnd allowed (sign :: rest) rest
  | omitted {next : Token} {rest : List Token} :
      allowed next.kind → PrintsEnd allowed (next :: rest) (next :: rest)

/-- What may stand behind the expression of a statement without a semicolon: neither an operator
between operands nor an opening parenthesis. -/
def AfterExpression (kind : Kind) : Prop := ¬ Grammar.IsBinary kind ∧ kind ≠ .leftParen

/-- What may stand behind a return without a value and without a semicolon. -/
def AfterReturn (kind : Kind) : Prop := kind = .rightBrace ∨ kind = .eof

/-- A name is printed as a token of its spelling. -/
structure PrintsName (name : Name) (token : Token) : Prop where
  /-- The name is that of its own token. -/
  text : name.text = name.token.literal
  /-- Its own token is an identifier. -/
  kind : name.token.kind = .identifier
  /-- The printed token is spelled like its own. -/
  spelling : token.spelling = name.token.spelling

/-- Further names, each after a comma, and the closing parenthesis. -/
inductive PrintsMoreNames : List Name → List Token → List Name → List Token → Prop where
  | nil {right : Token} {rest : List Token} :
      right.kind = .rightParen → PrintsMoreNames [] (right :: rest) [] rest
  | cons {name : Name} {names q : List Name} {comma token : Token} {tokens rest : List Token} :
      comma.kind = .comma → PrintsName name token → PrintsMoreNames names tokens q rest →
      PrintsMoreNames (name :: names) (comma :: token :: tokens) (.ofToken token :: q) rest

/-- Names separated by commas, and the closing parenthesis. -/
inductive PrintsNames : List Name → List Token → List Name → List Token → Prop where
  | nil {right : Token} {rest : List Token} :
      right.kind = .rightParen → PrintsNames [] (right :: rest) [] rest
  | cons {name : Name} {names q : List Name} {token : Token} {tokens rest : List Token} :
      PrintsName name token → PrintsMoreNames names tokens q rest →
      PrintsNames (name :: names) (token :: tokens) (.ofToken token :: q) rest

mutual

/-- An expression in its place, in parentheses or without them. -/
inductive PrintsExpression :
    Place → Expression → List Token → Expression → List Token → Prop where
  | bare {place : Place} {e q : Expression} {tokens rest : List Token} :
      place.AllowsBare e → PrintsBare e tokens q rest → PrintsExpression place e tokens q rest
  | parens {place : Place} {e q : Expression} {left right : Token} {tokens rest : List Token} :
      left.kind = .leftParen → PrintsExpression .whole e tokens q (right :: rest) →
      right.kind = .rightParen → PrintsExpression place e (left :: tokens) q rest

/-- An expression without parentheses around it. -/
inductive PrintsBare : Expression → List Token → Expression → List Token → Prop where
  | identifier {name : Name} {token : Token} {rest : List Token} :
      PrintsName name token →
      PrintsBare (.identifier name) (token :: rest) (.identifier (.ofToken token)) rest
  | number {own token : Token} {value : Integer} {rest : List Token} :
      own.kind = .number → token.kind = .number → Integer.ofDigits? token.literal = some value →
      PrintsBare (.number own value) (token :: rest) (.number token value) rest
  | boolean {own token : Token} {value : Bool} {rest : List Token} :
      own.kind = (if value then .trueWord else .falseWord) → token.spelling = own.spelling →
      PrintsBare (.boolean own value) (token :: rest) (.boolean token value) rest
  | unary {own operator : Token} {operand q : Expression} {tokens rest : List Token} :
      own.kind = .bang ∨ own.kind = .minus → operator.spelling = own.spelling →
      PrintsExpression .operand operand tokens q rest →
      PrintsBare (.unary own operand) (operator :: tokens) (.unary operator q) rest
  | binary {own operator : Token} {left right ql qr : Expression}
      {tokens middle rest : List Token} :
      Grammar.IsBinary own.kind → operator.spelling = own.spelling →
      PrintsExpression (.leftOf own.kind) left tokens ql (operator :: middle) →
      PrintsExpression (.rightOf own.kind) right middle qr rest →
      PrintsBare (.binary left own right) tokens (.binary ql operator qr) rest
  | ifThen {own word left right : Token} {condition qc : Expression} {consequence qb : Block}
      {tokens middle rest : List Token} :
      own.kind = .ifWord → word.spelling = own.spelling → left.kind = .leftParen →
      PrintsExpression .whole condition tokens qc (right :: middle) → right.kind = .rightParen →
      PrintsBlock consequence middle qb rest →
      PrintsBare (.ifThen own condition consequence) (word :: left :: tokens)
        (.ifThen word qc qb) rest
  | ifElse {own word left right other : Token} {condition qc : Expression}
      {consequence alternative qb qa : Block} {tokens middle behind rest : List Token} :
      own.kind = .ifWord → word.spelling = own.spelling → left.kind = .leftParen →
      PrintsExpression .whole condition tokens qc (right :: middle) → right.kind = .rightParen →
      PrintsBlock consequence middle qb (other :: behind) → other.kind = .elseWord →
      PrintsBlock alternative behind qa rest →
      PrintsBare (.ifElse own condition consequence alternative) (word :: left :: tokens)
        (.ifElse word qc qb qa) rest
  | function {own word left : Token} {names qn : List Name} {body qb : Block}
      {tokens middle rest : List Token} :
      own.kind = .funWord → word.spelling = own.spelling → left.kind = .leftParen →
      PrintsNames names tokens qn middle → PrintsBlock body middle qb rest →
      PrintsBare (.function own names body) (word :: left :: tokens) (.function word qn qb) rest
  | call {own paren : Token} {callee qc : Expression} {arguments qa : List Expression}
      {tokens middle rest : List Token} :
      own.kind = .leftParen → paren.spelling = own.spelling →
      PrintsExpression .callee callee tokens qc (paren :: middle) →
      PrintsArguments arguments middle qa rest →
      PrintsBare (.call own callee arguments) tokens (.call paren qc qa) rest

/-- Expressions separated by commas, and the closing parenthesis. -/
inductive PrintsArguments :
    List Expression → List Token → List Expression → List Token → Prop where
  | nil {right : Token} {rest : List Token} :
      right.kind = .rightParen → PrintsArguments [] (right :: rest) [] rest
  | cons {e qe : Expression} {es q : List Expression} {tokens middle rest : List Token} :
      PrintsExpression .whole e tokens qe middle → PrintsMoreArguments es middle q rest →
      PrintsArguments (e :: es) tokens (qe :: q) rest

/-- Further expressions, each after a comma, and the closing parenthesis. -/
inductive PrintsMoreArguments :
    List Expression → List Token → List Expression → List Token → Prop where
  | nil {right : Token} {rest : List Token} :
      right.kind = .rightParen → PrintsMoreArguments [] (right :: rest) [] rest
  | cons {e qe : Expression} {es q : List Expression} {comma : Token}
      {tokens middle rest : List Token} :
      comma.kind = .comma → PrintsExpression .whole e tokens qe middle →
      PrintsMoreArguments es middle q rest →
      PrintsMoreArguments (e :: es) (comma :: tokens) (qe :: q) rest

/-- Statements in braces. -/
inductive PrintsBlock : Block → List Token → Block → List Token → Prop where
  | mk {own left right : Token} {statements q : List Statement} {tokens rest : List Token} :
      own.kind = .leftBrace → left.spelling = own.spelling →
      PrintsStatements statements tokens q (right :: rest) → right.kind = .rightBrace →
      PrintsBlock (.mk own statements) (left :: tokens) (.mk left q) rest

/-- Statements one after the other. -/
inductive PrintsStatements :
    List Statement → List Token → List Statement → List Token → Prop where
  | nil {rest : List Token} : PrintsStatements [] rest [] rest
  | cons {statement qs : Statement} {statements q : List Statement}
      {tokens middle rest : List Token} :
      PrintsStatement statement tokens qs middle → PrintsStatements statements middle q rest →
      PrintsStatements (statement :: statements) tokens (qs :: q) rest

/-- A statement with its end. An expression as a statement is known by the first token it is printed
with. -/
inductive PrintsStatement : Statement → List Token → Statement → List Token → Prop where
  | declaration {own word token sign : Token} {name : Name} {value q : Expression}
      {tokens middle rest : List Token} :
      own.kind = .sayWord ∨ own.kind = .invarWord → word.spelling = own.spelling →
      PrintsName name token → sign.kind = .assign →
      PrintsExpression .whole value tokens q middle → PrintsEnd AfterExpression middle rest →
      PrintsStatement (.say own name value) (word :: token :: sign :: tokens)
        (.say word (.ofToken token) q) rest
  | returnOf {own word : Token} {value q : Expression} {tokens middle rest : List Token} :
      own.kind = .returnWord → word.spelling = own.spelling →
      PrintsExpression .whole value tokens q middle → PrintsEnd AfterExpression middle rest →
      PrintsStatement (.returnOf own value) (word :: tokens) (.returnOf word q) rest
  | bareReturn {own word : Token} {tokens rest : List Token} :
      own.kind = .returnWord → word.spelling = own.spelling → PrintsEnd AfterReturn tokens rest →
      PrintsStatement (.bareReturn own) (word :: tokens) (.bareReturn word) rest
  | expression {own first : Token} {value q : Expression} {tokens middle rest : List Token} :
      PrintsExpression .whole value (first :: tokens) q middle →
      PrintsEnd AfterExpression middle rest →
      PrintsStatement (.expression own value) (first :: tokens) (.expression first q) rest

end

/-- A program is printed as its statements and the end of input. -/
inductive PrintsProgram : Program → List Token → Program → Prop where
  | mk {program : Program} {tokens : List Token} {q : List Statement} {last : Token} :
      PrintsStatements program.statements tokens q [last] → last.kind = .eof →
      PrintsProgram program tokens ⟨q⟩

/-! ## What a printing leaves open -/

/-- The token without its line. -/
def Token.erase (token : Token) : Token := ⟨token.kind, token.literal, 0⟩

/-- The name without the line of its token. -/
def Name.erase (name : Name) : Name := ⟨name.token.erase, name.text⟩

mutual

/-- The expression without the lines of its tokens and without the spelling of its numbers. -/
def Expression.erase : Expression → Expression
  | .identifier name => .identifier name.erase
  | .number token value => .number ⟨token.kind, "", 0⟩ value
  | .boolean token value => .boolean token.erase value
  | .unary operator operand => .unary operator.erase operand.erase
  | .binary left operator right => .binary left.erase operator.erase right.erase
  | .ifThen token condition consequence => .ifThen token.erase condition.erase consequence.erase
  | .ifElse token condition consequence alternative =>
    .ifElse token.erase condition.erase consequence.erase alternative.erase
  | .function token parameters body => .function token.erase (parameters.map Name.erase) body.erase
  | .call token callee arguments =>
    .call token.erase callee.erase (Expression.eraseEach arguments)
  | .error token message => .error token.erase message

/-- Each expression of a list. -/
def Expression.eraseEach : List Expression → List Expression
  | [] => []
  | expression :: rest => expression.erase :: Expression.eraseEach rest

/-- The statement, likewise; one token stands for all that a statement of an expression may be known
by. -/
def Statement.erase : Statement → Statement
  | .expression _ value => .expression ⟨.eof, "", 0⟩ value.erase
  | .say token name value => .say token.erase name.erase value.erase
  | .bareReturn token => .bareReturn token.erase
  | .returnOf token value => .returnOf token.erase value.erase
  | .block body => .block body.erase

/-- Each statement of a list. -/
def Statement.eraseEach : List Statement → List Statement
  | [] => []
  | statement :: rest => statement.erase :: Statement.eraseEach rest

/-- The block, likewise. -/
def Block.erase : Block → Block
  | .mk token statements => .mk token.erase (Statement.eraseEach statements)

end

/-- The program, likewise. -/
def Program.erase (program : Program) : Program := ⟨Statement.eraseEach program.statements⟩

theorem erase_eq_of_spelling {token own : Token} (h : token.spelling = own.spelling) :
    token.erase = own.erase := by
  have hkind : token.kind = own.kind := congrArg Prod.fst h
  have hliteral : token.literal = own.literal := congrArg Prod.snd h
  rw [Token.erase, Token.erase, hkind, hliteral]

theorem kind_eq_of_spelling {token own : Token} (h : token.spelling = own.spelling) :
    token.kind = own.kind :=
  congrArg Prod.fst h

theorem PrintsName.erase_eq {name : Name} {token : Token} (h : PrintsName name token) :
    (Name.ofToken token).erase = name.erase := by
  have hliteral : token.literal = name.token.literal := congrArg Prod.snd h.spelling
  rw [Name.erase, Name.erase, Name.ofToken, erase_eq_of_spelling h.spelling, h.text, hliteral]

theorem PrintsMoreNames.erase_eq {names q : List Name} {tokens rest : List Token}
    (h : PrintsMoreNames names tokens q rest) : q.map Name.erase = names.map Name.erase := by
  induction h with
  | nil _ => rfl
  | cons _ hname _ ih => rw [List.map_cons, List.map_cons, hname.erase_eq, ih]

theorem PrintsNames.erase_eq {names q : List Name} {tokens rest : List Token}
    (h : PrintsNames names tokens q rest) : q.map Name.erase = names.map Name.erase := by
  cases h with
  | nil _ => rfl
  | cons hname hmore => rw [List.map_cons, List.map_cons, hname.erase_eq, hmore.erase_eq]

mutual

theorem PrintsExpression.erase_eq : ∀ {place : Place} {e q : Expression}
    {tokens rest : List Token}, PrintsExpression place e tokens q rest → q.erase = e.erase
  | _, _, _, _, _, .bare _ hb => hb.erase_eq
  | _, _, _, _, _, .parens _ he _ => he.erase_eq

theorem PrintsBare.erase_eq : ∀ {e q : Expression} {tokens rest : List Token},
    PrintsBare e tokens q rest → q.erase = e.erase
  | _, _, _, _, .identifier hname => by
    rw [Expression.erase, Expression.erase, hname.erase_eq]
  | _, _, _, _, .number hown htoken _ => by
    rw [Expression.erase, Expression.erase, hown, htoken]
  | _, _, _, _, .boolean _ htoken => by
    rw [Expression.erase, Expression.erase, erase_eq_of_spelling htoken]
  | _, _, _, _, .unary _ hoperator he => by
    rw [Expression.erase, Expression.erase, erase_eq_of_spelling hoperator, he.erase_eq]
  | _, _, _, _, .binary _ hoperator hl hr => by
    rw [Expression.erase, Expression.erase, erase_eq_of_spelling hoperator, hl.erase_eq,
      hr.erase_eq]
  | _, _, _, _, .ifThen _ hword _ hc _ hb => by
    rw [Expression.erase, Expression.erase, erase_eq_of_spelling hword, hc.erase_eq, hb.erase_eq]
  | _, _, _, _, .ifElse _ hword _ hc _ hb _ ha => by
    rw [Expression.erase, Expression.erase, erase_eq_of_spelling hword, hc.erase_eq, hb.erase_eq,
      ha.erase_eq]
  | _, _, _, _, .function _ hword _ hn hb => by
    rw [Expression.erase, Expression.erase, erase_eq_of_spelling hword, hn.erase_eq, hb.erase_eq]
  | _, _, _, _, .call _ hparen hc ha => by
    rw [Expression.erase, Expression.erase, erase_eq_of_spelling hparen, hc.erase_eq, ha.erase_eq]

theorem PrintsArguments.erase_eq : ∀ {es q : List Expression} {tokens rest : List Token},
    PrintsArguments es tokens q rest → Expression.eraseEach q = Expression.eraseEach es
  | _, _, _, _, .nil _ => rfl
  | _, _, _, _, .cons he hm => by
    rw [Expression.eraseEach, Expression.eraseEach, he.erase_eq, hm.erase_eq]

theorem PrintsMoreArguments.erase_eq : ∀ {es q : List Expression} {tokens rest : List Token},
    PrintsMoreArguments es tokens q rest → Expression.eraseEach q = Expression.eraseEach es
  | _, _, _, _, .nil _ => rfl
  | _, _, _, _, .cons _ he hm => by
    rw [Expression.eraseEach, Expression.eraseEach, he.erase_eq, hm.erase_eq]

theorem PrintsBlock.erase_eq : ∀ {block q : Block} {tokens rest : List Token},
    PrintsBlock block tokens q rest → q.erase = block.erase
  | _, _, _, _, .mk _ hleft hs _ => by
    rw [Block.erase, Block.erase, erase_eq_of_spelling hleft, hs.erase_eq]

theorem PrintsStatements.erase_eq : ∀ {statements q : List Statement} {tokens rest : List Token},
    PrintsStatements statements tokens q rest →
      Statement.eraseEach q = Statement.eraseEach statements
  | _, _, _, _, .nil => rfl
  | _, _, _, _, .cons hs hss => by
    rw [Statement.eraseEach, Statement.eraseEach, hs.erase_eq, hss.erase_eq]

theorem PrintsStatement.erase_eq : ∀ {statement q : Statement} {tokens rest : List Token},
    PrintsStatement statement tokens q rest → q.erase = statement.erase
  | _, _, _, _, .declaration _ hword hname _ he _ => by
    rw [Statement.erase, Statement.erase, erase_eq_of_spelling hword, hname.erase_eq, he.erase_eq]
  | _, _, _, _, .returnOf _ hword he _ => by
    rw [Statement.erase, Statement.erase, erase_eq_of_spelling hword, he.erase_eq]
  | _, _, _, _, .bareReturn _ hword _ => by
    rw [Statement.erase, Statement.erase, erase_eq_of_spelling hword]
  | _, _, _, _, .expression he _ => by
    rw [Statement.erase, Statement.erase, he.erase_eq]

end

/-- A tree and the tree with the tokens it is printed with differ only in lines, in the spelling of
numbers and in the tokens of statements of an expression. -/
theorem PrintsProgram.erase_eq {program q : Program} {tokens : List Token}
    (h : PrintsProgram program tokens q) : q.erase = program.erase := by
  obtain ⟨hs, _⟩ := h
  rw [Program.erase, Program.erase, hs.erase_eq]

end SayLang
