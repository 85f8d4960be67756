import SayLang.Proofs.Following

/-!
# No token is lost, repeated or moved

Walking a tree in source order gives back the tokens it was read from: all of them but the signs
that only hold a form together, and those in the order and on the lines in which they stand.

> `tokens_program_eq_filter`: what is read without diagnostics gives back its tokens.

Each reading accounts for the tokens between its two lists (`ReadsExpression.tokens_eq` and the
likes). A left side that something is folded onto is walked before it, so `ReadsClimb` accounts for
the left side and the tokens behind it together.
-/

namespace SayLang

/-! ## The tokens of a tree -/

mutual

/-- The tokens of an expression in source order. The parentheses of a call are left out, like those
around an expression. -/
def Expression.tokens : Expression → List Token
  | .identifier name => [name.token]
  | .number token _ | .boolean token _ | .error token _ => [token]
  | .unary operator operand => operator :: operand.tokens
  | .binary left operator right => left.tokens ++ operator :: right.tokens
  | .ifThen token condition consequence => token :: (condition.tokens ++ consequence.tokens)
  | .ifElse token condition consequence alternative =>
    token :: (condition.tokens ++ (consequence.tokens ++ alternative.tokens))
  | .function token parameters body => token :: (parameters.map Name.token ++ body.tokens)
  | .call _ callee arguments => callee.tokens ++ Expression.tokensOfEach arguments

/-- The tokens of each expression of a list. -/
def Expression.tokensOfEach : List Expression → List Token
  | [] => []
  | expression :: rest => expression.tokens ++ Expression.tokensOfEach rest

/-- The tokens of a statement in source order. -/
def Statement.tokens : Statement → List Token
  | .expression _ value => value.tokens
  | .say token name value => token :: name.token :: value.tokens
  | .bareReturn token => [token]
  | .returnOf token value => token :: value.tokens
  | .block body => body.tokens

/-- The tokens of each statement of a list. -/
def Statement.tokensOfEach : List Statement → List Token
  | [] => []
  | statement :: rest => statement.tokens ++ Statement.tokensOfEach rest

/-- The opening brace of a block and the tokens of its statements. -/
def Block.tokens : Block → List Token
  | .mk token statements => token :: Statement.tokensOfEach statements

end

/-- The tokens of a program in source order. -/
def Program.tokens (program : Program) : List Token := Statement.tokensOfEach program.statements

/-- The kinds of tokens that a tree keeps: names, literals, operators, opening braces, and the words
that a form starts with. -/
def Kind.isKept : Kind → Bool
  | identifier | number | trueWord | falseWord | sayWord | invarWord | returnWord | ifWord | funWord
  | plus | minus | asterisk | slash | bang | less | greater | equalEqual | bangEqual
  | leftBrace => true
  | elseWord | assign | leftParen | rightParen | rightBrace | comma | semicolon | illegal
  | eof => false

/-- The tokens that a tree keeps. -/
def kept (tokens : List Token) : List Token := tokens.filter (·.kind.isKept)

/-! ## What readings account for -/

section kept

variable {token : Token} (tokens : List Token)

theorem kept_cons_of_isKept (h : token.kind.isKept = true) :
    kept (token :: tokens) = token :: kept tokens :=
  List.filter_cons_of_pos h

theorem kept_cons_of_not_isKept (h : token.kind.isKept = false) :
    kept (token :: tokens) = kept tokens :=
  List.filter_cons_of_neg (by rw [h]; exact Bool.false_ne_true)

end kept

theorem isKept_of_isBinary {kind : Kind} (h : Grammar.IsBinary kind) : kind.isKept = true := by
  rcases h with rfl | rfl | rfl | rfl | rfl | rfl | rfl | rfl <;> rfl

theorem ReadsSemicolon.kept_eq {tokens rest : List Token} (h : ReadsSemicolon tokens rest) :
    kept tokens = kept rest := by
  cases h with
  | absent _ => rfl
  | present hk => exact kept_cons_of_not_isKept _ (by rw [hk]; rfl)

theorem ReadsMoreNames.tokens_eq {tokens rest : List Token} {names : List Name}
    (h : ReadsMoreNames tokens names rest) :
    kept tokens = names.map Name.token ++ kept rest := by
  induction h with
  | stop _ => rfl
  | cons hcomma hname _ ih =>
    rw [kept_cons_of_not_isKept _ (by rw [hcomma]; rfl),
      kept_cons_of_isKept _ (by rw [hname]; rfl), ih]
    rfl

theorem ReadsNames.tokens_eq {tokens rest : List Token} {names : List Name}
    (h : ReadsNames tokens names rest) :
    kept tokens = names.map Name.token ++ kept rest := by
  cases h with
  | none hright => exact kept_cons_of_not_isKept _ (by rw [hright]; rfl)
  | cons hname hmore hright =>
    rw [kept_cons_of_isKept _ (by rw [hname]; rfl), hmore.tokens_eq,
      kept_cons_of_not_isKept _ (by rw [hright]; rfl)]
    rfl

-- The recursion is on the reading: each rule puts its own tokens in front of what its parts account
-- for, and keeps or drops them as the tree does.
mutual

theorem ReadsExpression.tokens_eq : ∀ {floor : Precedence} {tokens rest : List Token}
    {e : Expression}, ReadsExpression floor tokens e rest → kept tokens = e.tokens ++ kept rest
  | _, _, _, _, .mk ho hc => ho.tokens_eq.trans hc.tokens_eq

theorem ReadsOpening.tokens_eq : ∀ {tokens rest : List Token} {e : Expression},
    ReadsOpening tokens e rest → kept tokens = e.tokens ++ kept rest
  | _, _, _, .identifier hk | _, _, _, .number hk _ => kept_cons_of_isKept _ (by rw [hk]; rfl)
  | _, _, _, .boolean hk => kept_cons_of_isKept _ (by rcases hk with hk | hk <;> rw [hk] <;> rfl)
  | _, _, _, .unary hk he => by
    rw [kept_cons_of_isKept _ (by rcases hk with hk | hk <;> rw [hk] <;> rfl), he.tokens_eq]
    rfl
  | _, _, _, .group hleft he hright => by
    rw [kept_cons_of_not_isKept _ (by rw [hleft]; rfl), he.tokens_eq,
      kept_cons_of_not_isKept _ (by rw [hright]; rfl)]
  | _, _, _, .ifThen hword hleft he hright hb _ => by
    rw [kept_cons_of_isKept _ (by rw [hword]; rfl),
      kept_cons_of_not_isKept _ (by rw [hleft]; rfl), he.tokens_eq,
      kept_cons_of_not_isKept _ (by rw [hright]; rfl), hb.tokens_eq]
    simp [Expression.tokens]
  | _, _, _, .ifElse hword hleft he hright hb hnext ha => by
    rw [kept_cons_of_isKept _ (by rw [hword]; rfl),
      kept_cons_of_not_isKept _ (by rw [hleft]; rfl), he.tokens_eq,
      kept_cons_of_not_isKept _ (by rw [hright]; rfl), hb.tokens_eq,
      kept_cons_of_not_isKept _ (by rw [hnext]; rfl), ha.tokens_eq]
    simp [Expression.tokens]
  | _, _, _, .function hword hleft hn hb => by
    rw [kept_cons_of_isKept _ (by rw [hword]; rfl),
      kept_cons_of_not_isKept _ (by rw [hleft]; rfl), hn.tokens_eq, hb.tokens_eq]
    simp [Expression.tokens]

/-- The left side is walked before what is folded onto it. -/
theorem ReadsClimb.tokens_eq : ∀ {floor : Precedence} {left e : Expression}
    {tokens rest : List Token}, ReadsClimb floor left tokens e rest →
      left.tokens ++ kept tokens = e.tokens ++ kept rest
  | _, _, _, _, _, .stop _ => rfl
  | _, _, _, _, _, .binary hlt hne he hc => by
    have hbehind := hc.tokens_eq
    rw [Expression.tokens, List.append_assoc, List.cons_append] at hbehind
    rw [kept_cons_of_isKept _ (isKept_of_isBinary (isBinary_of_lt hlt hne)), he.tokens_eq, hbehind]
  | _, _, _, _, _, .call _ hk ha hc => by
    have hbehind := hc.tokens_eq
    rw [Expression.tokens, List.append_assoc] at hbehind
    rw [kept_cons_of_not_isKept _ (by rw [hk]; rfl), ha.tokens_eq, hbehind]

theorem ReadsArguments.tokens_eq : ∀ {tokens rest : List Token} {arguments : List Expression},
    ReadsArguments tokens arguments rest →
      kept tokens = Expression.tokensOfEach arguments ++ kept rest
  | _, _, _, .none hright => kept_cons_of_not_isKept _ (by rw [hright]; rfl)
  | _, _, _, .cons he hm hright => by
    rw [he.tokens_eq, hm.tokens_eq, kept_cons_of_not_isKept _ (by rw [hright]; rfl),
      Expression.tokensOfEach, List.append_assoc]

theorem ReadsMoreArguments.tokens_eq : ∀ {tokens rest : List Token}
    {arguments : List Expression}, ReadsMoreArguments tokens arguments rest →
      kept tokens = Expression.tokensOfEach arguments ++ kept rest
  | _, _, _, .stop _ => rfl
  | _, _, _, .cons hcomma he hm => by
    rw [kept_cons_of_not_isKept _ (by rw [hcomma]; rfl), he.tokens_eq, hm.tokens_eq,
      Expression.tokensOfEach, List.append_assoc]

theorem ReadsBlock.tokens_eq : ∀ {tokens rest : List Token} {block : Block},
    ReadsBlock tokens block rest → kept tokens = block.tokens ++ kept rest
  | _, _, _, .mk hleft hs hright => by
    rw [kept_cons_of_isKept _ (by rw [hleft]; rfl), hs.tokens_eq,
      kept_cons_of_not_isKept _ (by rw [hright]; rfl)]
    rfl

theorem ReadsStatements.tokens_eq : ∀ {tokens rest : List Token} {statements : List Statement},
    ReadsStatements tokens statements rest →
      kept tokens = Statement.tokensOfEach statements ++ kept rest
  | _, _, _, .stop _ => rfl
  | _, _, _, .cons hs hss => by
    rw [hs.tokens_eq, hss.tokens_eq, Statement.tokensOfEach, List.append_assoc]

theorem ReadsStatement.tokens_eq : ∀ {tokens rest : List Token} {statement : Statement},
    ReadsStatement tokens statement rest → kept tokens = statement.tokens ++ kept rest
  | _, _, _, .declaration hword hname hsign he hs => by
    rw [kept_cons_of_isKept _ (by rcases hword with hk | hk <;> rw [hk] <;> rfl),
      kept_cons_of_isKept _ (by rw [hname]; rfl), kept_cons_of_not_isKept _ (by rw [hsign]; rfl),
      he.tokens_eq, hs.kept_eq]
    rfl
  | _, _, _, .returnOf hword he hs => by
    rw [kept_cons_of_isKept _ (by rw [hword]; rfl), he.tokens_eq, hs.kept_eq]
    rfl
  | _, _, _, .bareReturn hword _ hs => by
    rw [kept_cons_of_isKept _ (by rw [hword]; rfl), hs.kept_eq]
    rfl
  | _, _, _, .expression he hs => by
    rw [he.tokens_eq, hs.kept_eq]
    rfl

end

/-- A reading keeps all tokens that a tree keeps. -/
theorem ReadsProgram.tokens_eq {tokens : List Token} {program : Program}
    (h : ReadsProgram tokens program) : program.tokens = kept tokens := by
  obtain ⟨hs, hlast⟩ := h
  rw [hs.tokens_eq, kept_cons_of_not_isKept _ (by rw [hlast]; rfl)]
  exact (List.append_nil _).symm

/-- Walking what was read from a text without diagnostics gives back the tokens of the text, lines
included, without the signs that a tree does not keep. -/
theorem tokens_program_eq_filter (source : String) (h : (parse source).diagnostics = []) :
    (parse source).program.tokens =
      (tokenize source).filter fun token => token.kind.isKept := by
  have hreads := readsProgram_of_diagnostics_eq_nil (Window.ofSource_starts source) h
  exact hreads.tokens_eq

/-- Such a text is a declaration with a call in parentheses and no semicolon. -/
theorem tokens_program_of_declaration :
    (parse "say x = (-f(y, 2))").diagnostics = [] ∧
      (parse "say x = (-f(y, 2))").program.tokens =
        (tokenize "say x = (-f(y, 2))").filter fun token => token.kind.isKept := by
  have h : (parse "say x = (-f(y, 2))").diagnostics = [] := by decide
  exact ⟨h, tokens_program_eq_filter _ h⟩

end SayLang
