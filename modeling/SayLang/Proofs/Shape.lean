import SayLang.Proofs.Printing

/-!
# Which trees can be printed

A tree has the shape of one that is read when no node of it stands for a broken expression, no block
stands as a statement, no number is negative, and every token is of a kind that its node is read
from.

> `exists_printsProgram_iff`: the trees that have a printing are those of that shape.

A printing is found for any tokens behind it: each expression goes without parentheses where its
place allows that, and each statement gets a semicolon.
-/

namespace SayLang

/-! ## The shape of a tree that is read -/

/-- The name is that of its token, an identifier. -/
def Name.Shaped (name : Name) : Prop :=
  name.token.kind = .identifier ∧ name.text = name.token.literal

mutual

/-- The expression has the shape of one that is read. -/
def Expression.Shaped : Expression → Prop
  | .identifier name => name.Shaped
  | .number token value => token.kind = .number ∧ 0 ≤ value.val
  | .boolean token value => token.kind = (if value then .trueWord else .falseWord)
  | .unary operator operand =>
    (operator.kind = .bang ∨ operator.kind = .minus) ∧ operand.Shaped
  | .binary left operator right =>
    Grammar.IsBinary operator.kind ∧ left.Shaped ∧ right.Shaped
  | .ifThen token condition consequence =>
    token.kind = .ifWord ∧ condition.Shaped ∧ consequence.Shaped
  | .ifElse token condition consequence alternative =>
    token.kind = .ifWord ∧ condition.Shaped ∧ consequence.Shaped ∧ alternative.Shaped
  | .function token parameters body =>
    token.kind = .funWord ∧ (∀ name ∈ parameters, name.Shaped) ∧ body.Shaped
  | .call token callee arguments =>
    token.kind = .leftParen ∧ callee.Shaped ∧ Expression.ShapedEach arguments
  | .error _ _ => False

/-- Each expression of a list has it. -/
def Expression.ShapedEach : List Expression → Prop
  | [] => True
  | expression :: rest => expression.Shaped ∧ Expression.ShapedEach rest

/-- The statement has it. -/
def Statement.Shaped : Statement → Prop
  | .expression _ value => value.Shaped
  | .say token name value =>
    (token.kind = .sayWord ∨ token.kind = .invarWord) ∧ name.Shaped ∧ value.Shaped
  | .bareReturn token => token.kind = .returnWord
  | .returnOf token value => token.kind = .returnWord ∧ value.Shaped
  | .block _ => False

/-- Each statement of a list has it. -/
def Statement.ShapedEach : List Statement → Prop
  | [] => True
  | statement :: rest => statement.Shaped ∧ Statement.ShapedEach rest

/-- The block has it. -/
def Block.Shaped : Block → Prop
  | .mk token statements => token.kind = .leftBrace ∧ Statement.ShapedEach statements

end

/-- The program has the shape of one that is read. -/
def Program.Shaped (program : Program) : Prop := Statement.ShapedEach program.statements

/-! ## Only trees of that shape are printed -/

theorem PrintsName.shaped {name : Name} {token : Token} (h : PrintsName name token) :
    name.Shaped :=
  ⟨h.kind, h.text⟩

theorem PrintsMoreNames.shaped {names q : List Name} {tokens rest : List Token}
    (h : PrintsMoreNames names tokens q rest) : ∀ name ∈ names, name.Shaped := by
  induction h with
  | nil _ => exact List.forall_mem_nil _
  | cons _ hname _ ih => exact List.forall_mem_cons.mpr ⟨hname.shaped, ih⟩

theorem PrintsNames.shaped {names q : List Name} {tokens rest : List Token}
    (h : PrintsNames names tokens q rest) : ∀ name ∈ names, name.Shaped := by
  cases h with
  | nil _ => exact List.forall_mem_nil _
  | cons hname hmore => exact List.forall_mem_cons.mpr ⟨hname.shaped, hmore.shaped⟩

/-- Digits denote no negative number. -/
theorem nonneg_of_ofDigits? {digits : String} {value : Integer}
    (h : Integer.ofDigits? digits = some value) : 0 ≤ value.val := by
  obtain ⟨-, -, hvalue⟩ := Integer.ofDigits?_eq_some_iff.mp h
  omega

mutual

theorem PrintsExpression.shaped : ∀ {place : Place} {e q : Expression} {tokens rest : List Token},
    PrintsExpression place e tokens q rest → e.Shaped
  | _, _, _, _, _, .bare _ hb => hb.shaped
  | _, _, _, _, _, .parens _ he _ => he.shaped

theorem PrintsBare.shaped : ∀ {e q : Expression} {tokens rest : List Token},
    PrintsBare e tokens q rest → e.Shaped
  | _, _, _, _, .identifier hname => hname.shaped
  | _, _, _, _, .number hown _ hvalue => ⟨hown, nonneg_of_ofDigits? hvalue⟩
  | _, _, _, _, .boolean hown _ => hown
  | _, _, _, _, .unary hown _ he => ⟨hown, he.shaped⟩
  | _, _, _, _, .binary hown _ hl hr => ⟨hown, hl.shaped, hr.shaped⟩
  | _, _, _, _, .ifThen hown _ _ hc _ hb => ⟨hown, hc.shaped, hb.shaped⟩
  | _, _, _, _, .ifElse hown _ _ hc _ hb _ ha => ⟨hown, hc.shaped, hb.shaped, ha.shaped⟩
  | _, _, _, _, .function hown _ _ hn hb => ⟨hown, hn.shaped, hb.shaped⟩
  | _, _, _, _, .call hown _ hc ha => ⟨hown, hc.shaped, ha.shaped⟩

theorem PrintsArguments.shaped : ∀ {es q : List Expression} {tokens rest : List Token},
    PrintsArguments es tokens q rest → Expression.ShapedEach es
  | _, _, _, _, .nil _ => trivial
  | _, _, _, _, .cons he hm => ⟨he.shaped, hm.shaped⟩

theorem PrintsMoreArguments.shaped : ∀ {es q : List Expression} {tokens rest : List Token},
    PrintsMoreArguments es tokens q rest → Expression.ShapedEach es
  | _, _, _, _, .nil _ => trivial
  | _, _, _, _, .cons _ he hm => ⟨he.shaped, hm.shaped⟩

theorem PrintsBlock.shaped : ∀ {block q : Block} {tokens rest : List Token},
    PrintsBlock block tokens q rest → block.Shaped
  | _, _, _, _, .mk hown _ hs _ => ⟨hown, hs.shaped⟩

theorem PrintsStatements.shaped : ∀ {statements q : List Statement} {tokens rest : List Token},
    PrintsStatements statements tokens q rest → Statement.ShapedEach statements
  | _, _, _, _, .nil => trivial
  | _, _, _, _, .cons hs hss => ⟨hs.shaped, hss.shaped⟩

theorem PrintsStatement.shaped : ∀ {statement q : Statement} {tokens rest : List Token},
    PrintsStatement statement tokens q rest → statement.Shaped
  | _, _, _, _, .declaration hown _ hname _ he _ => ⟨hown, hname.shaped, he.shaped⟩
  | _, _, _, _, .returnOf hown _ he _ => ⟨hown, he.shaped⟩
  | _, _, _, _, .bareReturn hown _ _ => hown
  | _, _, _, _, .expression he _ => he.shaped

end

mutual

theorem PrintsExpression.ne_nil : ∀ {place : Place} {e q : Expression} {tokens rest : List Token},
    PrintsExpression place e tokens q rest → tokens ≠ []
  | _, _, _, _, _, .bare _ hb => hb.ne_nil
  | _, _, _, _, _, .parens _ _ _ => List.cons_ne_nil _ _

theorem PrintsBare.ne_nil : ∀ {e q : Expression} {tokens rest : List Token},
    PrintsBare e tokens q rest → tokens ≠ []
  | _, _, _, _, .binary _ _ hl _ => hl.ne_nil
  | _, _, _, _, .call _ _ hc _ => hc.ne_nil
  | _, _, _, _, .identifier _ | _, _, _, _, .number _ _ _ | _, _, _, _, .boolean _ _
  | _, _, _, _, .unary _ _ _ | _, _, _, _, .ifThen _ _ _ _ _ _
  | _, _, _, _, .ifElse _ _ _ _ _ _ _ _ | _, _, _, _, .function _ _ _ _ _ =>
    List.cons_ne_nil _ _

end

/-! ## Every tree of that shape has a printing -/

/-- An integer that is not negative is written as its digits. -/
theorem Integer.text_of_nonneg {n : Integer} (h : 0 ≤ n.val) :
    n.text = String.ofList (Nat.toDigits 10 n.val.toNat) := by
  rw [text, Int.toString_eq_repr, Int.repr_eq_if, if_pos h, ← Nat.toString_eq_repr,
    Nat.toString_eq_ofList_toDigits]

/-- A negative one is written as a sign and the digits of its opposite. -/
theorem Integer.text_of_neg {n : Integer} (h : n.val < 0) :
    n.text = "-" ++ String.ofList (Nat.toDigits 10 (-n.val).toNat) := by
  rw [text, Int.toString_eq_repr, Int.repr_eq_if, if_neg (Int.not_le.mpr h),
    ← Nat.toString_eq_repr, Nat.toString_eq_ofList_toDigits]

/-- A number that is not negative is denoted by its digits. -/
theorem ofDigits?_toDigits {value : Integer} (h : 0 ≤ value.val) :
    Integer.ofDigits? (String.ofList (Nat.toDigits 10 value.val.toNat)) = some value := by
  rw [Integer.ofDigits?_eq_some_iff, String.toList_ofList, Nat.ofDigitChars_ten_toDigits]
  refine ⟨Nat.toDigits_ne_nil, ?_, by omega⟩
  exact List.all_eq_true.mpr fun c hc => Nat.isDigit_of_mem_toDigits (by decide) (by decide) hc

theorem exists_digits {value : Integer} (h : 0 ≤ value.val) :
    ∃ digits, Integer.ofDigits? digits = some value :=
  ⟨_, ofDigits?_toDigits h⟩

/-- What can be printed without parentheses can be printed in every place. -/
theorem exists_printsExpression {e : Expression}
    (h : ∀ rest, ∃ tokens q, PrintsBare e tokens q rest) (place : Place) (rest : List Token) :
    ∃ tokens q, PrintsExpression place e tokens q rest := by
  by_cases hallows : place.AllowsBare e
  · obtain ⟨tokens, q, hb⟩ := h rest
    exact ⟨tokens, q, .bare hallows hb⟩
  · -- within parentheses any expression may stand
    obtain ⟨tokens, q, hb⟩ := h (⟨.rightParen, ")", 1⟩ :: rest)
    exact ⟨⟨.leftParen, "(", 1⟩ :: tokens, q, .parens rfl (.bare trivial hb) rfl⟩

theorem exists_printsMoreNames {names : List Name} (h : ∀ name ∈ names, name.Shaped)
    (rest : List Token) : ∃ tokens q, PrintsMoreNames names tokens q rest := by
  induction names with
  | nil => exact ⟨⟨.rightParen, ")", 1⟩ :: rest, [], .nil rfl⟩
  | cons name names ih =>
    obtain ⟨hname, hnames⟩ := List.forall_mem_cons.mp h
    obtain ⟨tokens, q, hmore⟩ := ih hnames
    exact ⟨⟨.comma, ",", 1⟩ :: name.token :: tokens, _,
      .cons rfl ⟨hname.2, hname.1, rfl⟩ hmore⟩

theorem exists_printsNames {names : List Name} (h : ∀ name ∈ names, name.Shaped)
    (rest : List Token) : ∃ tokens q, PrintsNames names tokens q rest := by
  cases names with
  | nil => exact ⟨⟨.rightParen, ")", 1⟩ :: rest, [], .nil rfl⟩
  | cons name names =>
    obtain ⟨hname, hnames⟩ := List.forall_mem_cons.mp h
    obtain ⟨tokens, q, hmore⟩ := exists_printsMoreNames hnames rest
    exact ⟨name.token :: tokens, _, .cons ⟨hname.2, hname.1, rfl⟩ hmore⟩

-- The recursion is on the tree. Each part is printed in front of the parts behind it, so the last
-- part of a form comes first.
mutual

theorem exists_printsBare : ∀ (e : Expression), e.Shaped → ∀ rest : List Token,
    ∃ tokens q, PrintsBare e tokens q rest
  | .identifier name, h, rest => ⟨name.token :: rest, _, .identifier ⟨h.2, h.1, rfl⟩⟩
  | .number _ value, h, rest => by
    obtain ⟨digits, hdigits⟩ := exists_digits h.2
    exact ⟨⟨.number, digits, 1⟩ :: rest, _, .number h.1 rfl hdigits⟩
  | .boolean token value, h, rest => ⟨token :: rest, _, .boolean h rfl⟩
  | .unary operator operand, h, rest => by
    obtain ⟨tokens, q, he⟩ :=
      exists_printsExpression (exists_printsBare operand h.2) .operand rest
    exact ⟨operator :: tokens, _, .unary h.1 rfl he⟩
  | .binary left operator right, h, rest => by
    obtain ⟨middle, qr, hr⟩ :=
      exists_printsExpression (exists_printsBare right h.2.2) (.rightOf operator.kind) rest
    obtain ⟨tokens, ql, hl⟩ :=
      exists_printsExpression (exists_printsBare left h.2.1) (.leftOf operator.kind)
        (operator :: middle)
    exact ⟨tokens, _, .binary h.1 rfl hl hr⟩
  | .ifThen token condition consequence, h, rest => by
    obtain ⟨middle, qb, hb⟩ := exists_printsBlock consequence h.2.2 rest
    obtain ⟨tokens, qc, hc⟩ :=
      exists_printsExpression (exists_printsBare condition h.2.1) .whole
        (⟨.rightParen, ")", 1⟩ :: middle)
    exact ⟨token :: ⟨.leftParen, "(", 1⟩ :: tokens, _, .ifThen h.1 rfl rfl hc rfl hb⟩
  | .ifElse token condition consequence alternative, h, rest => by
    obtain ⟨behind, qa, ha⟩ := exists_printsBlock alternative h.2.2.2 rest
    obtain ⟨middle, qb, hb⟩ :=
      exists_printsBlock consequence h.2.2.1 (⟨.elseWord, "else", 1⟩ :: behind)
    obtain ⟨tokens, qc, hc⟩ :=
      exists_printsExpression (exists_printsBare condition h.2.1) .whole
        (⟨.rightParen, ")", 1⟩ :: middle)
    exact ⟨token :: ⟨.leftParen, "(", 1⟩ :: tokens, _, .ifElse h.1 rfl rfl hc rfl hb rfl ha⟩
  | .function token parameters body, h, rest => by
    obtain ⟨middle, qb, hb⟩ := exists_printsBlock body h.2.2 rest
    obtain ⟨tokens, qn, hn⟩ := exists_printsNames h.2.1 middle
    exact ⟨token :: ⟨.leftParen, "(", 1⟩ :: tokens, _, .function h.1 rfl rfl hn hb⟩
  | .call token callee arguments, h, rest => by
    obtain ⟨middle, qa, ha⟩ := exists_printsArguments arguments h.2.2 rest
    obtain ⟨tokens, qc, hc⟩ :=
      exists_printsExpression (exists_printsBare callee h.2.1) .callee (token :: middle)
    exact ⟨tokens, _, .call h.1 rfl hc ha⟩
  | .error _ _, h, _ => h.elim

theorem exists_printsArguments : ∀ (es : List Expression), Expression.ShapedEach es →
    ∀ rest : List Token, ∃ tokens q, PrintsArguments es tokens q rest
  | [], _, rest => ⟨⟨.rightParen, ")", 1⟩ :: rest, [], .nil rfl⟩
  | e :: es, h, rest => by
    obtain ⟨middle, q, hm⟩ := exists_printsMoreArguments es h.2 rest
    obtain ⟨tokens, qe, he⟩ := exists_printsExpression (exists_printsBare e h.1) .whole middle
    exact ⟨tokens, _, .cons he hm⟩

theorem exists_printsMoreArguments : ∀ (es : List Expression), Expression.ShapedEach es →
    ∀ rest : List Token, ∃ tokens q, PrintsMoreArguments es tokens q rest
  | [], _, rest => ⟨⟨.rightParen, ")", 1⟩ :: rest, [], .nil rfl⟩
  | e :: es, h, rest => by
    obtain ⟨middle, q, hm⟩ := exists_printsMoreArguments es h.2 rest
    obtain ⟨tokens, qe, he⟩ := exists_printsExpression (exists_printsBare e h.1) .whole middle
    exact ⟨⟨.comma, ",", 1⟩ :: tokens, _, .cons rfl he hm⟩

theorem exists_printsBlock : ∀ (block : Block), block.Shaped → ∀ rest : List Token,
    ∃ tokens q, PrintsBlock block tokens q rest
  | .mk token statements, h, rest => by
    obtain ⟨tokens, q, hs⟩ :=
      exists_printsStatements statements h.2 (⟨.rightBrace, "\x7d", 1⟩ :: rest)
    exact ⟨token :: tokens, _, .mk h.1 rfl hs rfl⟩

theorem exists_printsStatements : ∀ (statements : List Statement),
    Statement.ShapedEach statements → ∀ rest : List Token,
      ∃ tokens q, PrintsStatements statements tokens q rest
  | [], _, rest => ⟨rest, [], .nil⟩
  | statement :: statements, h, rest => by
    obtain ⟨middle, q, hss⟩ := exists_printsStatements statements h.2 rest
    obtain ⟨tokens, qs, hs⟩ := exists_printsStatement statement h.1 middle
    exact ⟨tokens, _, .cons hs hss⟩

theorem exists_printsStatement : ∀ (statement : Statement), statement.Shaped →
    ∀ rest : List Token, ∃ tokens q, PrintsStatement statement tokens q rest
  | .expression token value, h, rest => by
    obtain ⟨tokens, q, he⟩ :=
      exists_printsExpression (exists_printsBare value h) .whole
        (⟨.semicolon, ";", 1⟩ :: rest)
    -- the statement is known by the first token of its expression, so there has to be one
    obtain ⟨first, others, rfl⟩ := List.exists_cons_of_ne_nil he.ne_nil
    exact ⟨first :: others, _, .expression he (.sign rfl)⟩
  | .say token name value, h, rest => by
    obtain ⟨tokens, q, he⟩ :=
      exists_printsExpression (exists_printsBare value h.2.2) .whole
        (⟨.semicolon, ";", 1⟩ :: rest)
    exact ⟨token :: name.token :: ⟨.assign, "=", 1⟩ :: tokens, _,
      .declaration h.1 rfl ⟨h.2.1.2, h.2.1.1, rfl⟩ rfl he (.sign rfl)⟩
  | .bareReturn token, h, rest =>
    ⟨token :: ⟨.semicolon, ";", 1⟩ :: rest, _, .bareReturn h rfl (.sign rfl)⟩
  | .returnOf token value, h, rest => by
    obtain ⟨tokens, q, he⟩ :=
      exists_printsExpression (exists_printsBare value h.2) .whole
        (⟨.semicolon, ";", 1⟩ :: rest)
    exact ⟨token :: tokens, _, .returnOf h.1 rfl he (.sign rfl)⟩
  | .block _, h, _ => h.elim

end

/-- The programs that have a printing are those of the shape that is read. -/
theorem exists_printsProgram_iff {program : Program} :
    (∃ tokens q, PrintsProgram program tokens q) ↔ program.Shaped := by
  constructor
  · intro h
    obtain ⟨_, _, hs, _⟩ := h
    exact hs.shaped
  · intro h
    obtain ⟨tokens, q, hs⟩ := exists_printsStatements program.statements h [⟨.eof, "", 1⟩]
    exact ⟨tokens, ⟨q⟩, .mk hs rfl⟩

end SayLang
