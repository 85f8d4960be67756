import SayLang.Precedence
import SayLang.Proofs.Derivation
import SayLang.Syntax

/-!
# The reading of a list of tokens

A derivation of the grammar has no tree and leaves choices open. A reading has neither freedom: it
says which tree a list of tokens is read as, with the precedence of operators and with everything
optional taken whenever it is there. `ReadsExpression floor tokens e rest` says that `tokens` start
with the expression `e`, which ends in front of the first operator that does not bind tighter than
`floor`, and that `rest` is left behind it.

> `ReadsProgram.unique`: a list of tokens has at most one reading.
> `ReadsProgram.derivation`: what has a reading is a program of the grammar.
-/

namespace SayLang

/-! ## Readings -/

/-- A semicolon is read if it is there. -/
inductive ReadsSemicolon : List Token → List Token → Prop where
  | absent {next : Token} {rest : List Token} :
      next.kind ≠ .semicolon → ReadsSemicolon (next :: rest) (next :: rest)
  | present {sign : Token} {rest : List Token} :
      sign.kind = .semicolon → ReadsSemicolon (sign :: rest) rest

/-- Further names are read as long as there is a comma. -/
inductive ReadsMoreNames : List Token → List Name → List Token → Prop where
  | stop {next : Token} {rest : List Token} :
      next.kind ≠ .comma → ReadsMoreNames (next :: rest) [] (next :: rest)
  | cons {comma name : Token} {tokens rest : List Token} {names : List Name} :
      comma.kind = .comma → name.kind = .identifier → ReadsMoreNames tokens names rest →
      ReadsMoreNames (comma :: name :: tokens) (.ofToken name :: names) rest

/-- The names of parameters and the closing parenthesis behind them. -/
inductive ReadsNames : List Token → List Name → List Token → Prop where
  | none {right : Token} {rest : List Token} :
      right.kind = .rightParen → ReadsNames (right :: rest) [] rest
  | cons {name right : Token} {tokens rest : List Token} {names : List Name} :
      name.kind = .identifier → ReadsMoreNames tokens names (right :: rest) →
      right.kind = .rightParen → ReadsNames (name :: tokens) (.ofToken name :: names) rest

mutual

/-- An expression up to the first operator that does not bind tighter than the floor. -/
inductive ReadsExpression : Precedence → List Token → Expression → List Token → Prop where
  | mk {floor : Precedence} {tokens middle rest : List Token} {left e : Expression} :
      ReadsOpening tokens left middle → ReadsClimb floor left middle e rest →
      ReadsExpression floor tokens e rest

/-- What an expression starts with. -/
inductive ReadsOpening : List Token → Expression → List Token → Prop where
  | identifier {token : Token} {rest : List Token} :
      token.kind = .identifier → ReadsOpening (token :: rest) (.identifier (.ofToken token)) rest
  | number {token : Token} {rest : List Token} {value : Integer} :
      token.kind = .number → Integer.ofDigits? token.literal = some value →
      ReadsOpening (token :: rest) (.number token value) rest
  | boolean {token : Token} {rest : List Token} :
      token.kind = .trueWord ∨ token.kind = .falseWord →
      ReadsOpening (token :: rest) (.boolean token (token.kind = .trueWord)) rest
  | unary {operator : Token} {tokens rest : List Token} {operand : Expression} :
      operator.kind = .bang ∨ operator.kind = .minus →
      ReadsExpression .unary tokens operand rest →
      ReadsOpening (operator :: tokens) (.unary operator operand) rest
  | group {left right : Token} {tokens rest : List Token} {inner : Expression} :
      left.kind = .leftParen → ReadsExpression .lowest tokens inner (right :: rest) →
      right.kind = .rightParen → ReadsOpening (left :: tokens) inner rest
  | ifThen {word left right next : Token} {tokens middle rest : List Token}
      {condition : Expression} {consequence : Block} :
      word.kind = .ifWord → left.kind = .leftParen →
      ReadsExpression .lowest tokens condition (right :: middle) → right.kind = .rightParen →
      ReadsBlock middle consequence (next :: rest) → next.kind ≠ .elseWord →
      ReadsOpening (word :: left :: tokens) (.ifThen word condition consequence) (next :: rest)
  | ifElse {word left right next : Token} {tokens middle behind rest : List Token}
      {condition : Expression} {consequence alternative : Block} :
      word.kind = .ifWord → left.kind = .leftParen →
      ReadsExpression .lowest tokens condition (right :: middle) → right.kind = .rightParen →
      ReadsBlock middle consequence (next :: behind) → next.kind = .elseWord →
      ReadsBlock behind alternative rest →
      ReadsOpening (word :: left :: tokens) (.ifElse word condition consequence alternative) rest
  | function {word left : Token} {tokens middle rest : List Token} {names : List Name}
      {body : Block} :
      word.kind = .funWord → left.kind = .leftParen → ReadsNames tokens names middle →
      ReadsBlock middle body rest →
      ReadsOpening (word :: left :: tokens) (.function word names body) rest

/-- What an expression goes on with behind its left side, folded into it. -/
inductive ReadsClimb : Precedence → Expression → List Token → Expression → List Token → Prop where
  | stop {floor : Precedence} {left : Expression} {next : Token} {rest : List Token} :
      ¬ floor < next.kind.precedence → ReadsClimb floor left (next :: rest) left (next :: rest)
  | binary {floor : Precedence} {left right e : Expression} {operator : Token}
      {tokens middle rest : List Token} :
      floor < operator.kind.precedence → operator.kind ≠ .leftParen →
      ReadsExpression operator.kind.precedence tokens right middle →
      ReadsClimb floor (.binary left operator right) middle e rest →
      ReadsClimb floor left (operator :: tokens) e rest
  | call {floor : Precedence} {left e : Expression} {paren : Token}
      {arguments : List Expression} {tokens middle rest : List Token} :
      floor < .call → paren.kind = .leftParen → ReadsArguments tokens arguments middle →
      ReadsClimb floor (.call paren left arguments) middle e rest →
      ReadsClimb floor left (paren :: tokens) e rest

/-- Arguments and the closing parenthesis behind them. -/
inductive ReadsArguments : List Token → List Expression → List Token → Prop where
  | none {right : Token} {rest : List Token} :
      right.kind = .rightParen → ReadsArguments (right :: rest) [] rest
  | cons {right : Token} {tokens middle rest : List Token} {first : Expression}
      {others : List Expression} :
      ReadsExpression .lowest tokens first middle →
      ReadsMoreArguments middle others (right :: rest) → right.kind = .rightParen →
      ReadsArguments tokens (first :: others) rest

/-- Further arguments are read as long as there is a comma. -/
inductive ReadsMoreArguments : List Token → List Expression → List Token → Prop where
  | stop {next : Token} {rest : List Token} :
      next.kind ≠ .comma → ReadsMoreArguments (next :: rest) [] (next :: rest)
  | cons {comma : Token} {tokens middle rest : List Token} {next : Expression}
      {others : List Expression} :
      comma.kind = .comma → ReadsExpression .lowest tokens next middle →
      ReadsMoreArguments middle others rest →
      ReadsMoreArguments (comma :: tokens) (next :: others) rest

/-- Statements in braces. -/
inductive ReadsBlock : List Token → Block → List Token → Prop where
  | mk {left right : Token} {tokens rest : List Token} {statements : List Statement} :
      left.kind = .leftBrace → ReadsStatements tokens statements (right :: rest) →
      right.kind = .rightBrace → ReadsBlock (left :: tokens) (.mk left statements) rest

/-- Statements up to a closing brace or the end of input. -/
inductive ReadsStatements : List Token → List Statement → List Token → Prop where
  | stop {next : Token} {rest : List Token} :
      next.kind = .rightBrace ∨ next.kind = .eof → ReadsStatements (next :: rest) [] (next :: rest)
  | cons {tokens middle rest : List Token} {first : Statement} {others : List Statement} :
      ReadsStatement tokens first middle → ReadsStatements middle others rest →
      ReadsStatements tokens (first :: others) rest

/-- A statement. -/
inductive ReadsStatement : List Token → Statement → List Token → Prop where
  | declaration {word name sign : Token} {tokens middle rest : List Token} {value : Expression} :
      word.kind = .sayWord ∨ word.kind = .invarWord → name.kind = .identifier →
      sign.kind = .assign → ReadsExpression .lowest tokens value middle →
      ReadsSemicolon middle rest →
      ReadsStatement (word :: name :: sign :: tokens) (.say word (.ofToken name) value) rest
  | returnOf {word : Token} {tokens middle rest : List Token} {value : Expression} :
      word.kind = .returnWord → ReadsExpression .lowest tokens value middle →
      ReadsSemicolon middle rest → ReadsStatement (word :: tokens) (.returnOf word value) rest
  | bareReturn {word : Token} {tokens rest : List Token} :
      word.kind = .returnWord → Grammar.EndsReturn tokens → ReadsSemicolon tokens rest →
      ReadsStatement (word :: tokens) (.bareReturn word) rest
  | expression {token : Token} {tokens middle rest : List Token} {value : Expression} :
      ReadsExpression .lowest (token :: tokens) value middle → ReadsSemicolon middle rest →
      ReadsStatement (token :: tokens) (.expression token value) rest

end

/-- A whole program: statements up to the end of input. -/
inductive ReadsProgram : List Token → Program → Prop where
  | mk {tokens : List Token} {last : Token} {statements : List Statement} :
      ReadsStatements tokens statements [last] → last.kind = .eof →
      ReadsProgram tokens ⟨statements⟩

/-! ## First tokens -/

/-- The kinds of tokens that start an expression. -/
def Kind.opens : Kind → Bool
  | identifier | number | trueWord | falseWord | bang | minus | leftParen | ifWord | funWord => true
  | _ => false

theorem ReadsOpening.head {token : Token} {tokens rest : List Token} {e : Expression}
    (h : ReadsOpening (token :: tokens) e rest) : token.kind.opens = true := by
  cases h with
  | boolean hk | unary hk _ => rcases hk with hk | hk <;> rw [hk] <;> rfl
  | identifier hk | number hk _ | group hk _ _ | ifThen hk _ _ _ _ _ | ifElse hk _ _ _ _ _ _
  | function hk _ _ _ => rw [hk]; rfl

theorem ReadsExpression.head {floor : Precedence} {token : Token} {tokens rest : List Token}
    {e : Expression} (h : ReadsExpression floor (token :: tokens) e rest) :
    token.kind.opens = true := by
  obtain ⟨ho, _⟩ := h
  exact ho.head

/-- An expression does not end a return. -/
theorem ReadsExpression.not_endsReturn {floor : Precedence} {tokens rest : List Token}
    {e : Expression} (h : ReadsExpression floor tokens e rest) : ¬ Grammar.EndsReturn tokens := by
  intro hend
  cases tokens with
  | nil => exact hend
  | cons token tokens =>
    have hopens := h.head
    rcases hend with hk | hk | hk <;> rw [hk] at hopens <;> cases hopens

/-- The kinds of tokens that start a statement. -/
def Kind.startsStatement : Kind → Bool
  | sayWord | invarWord | returnWord => true
  | kind => kind.opens

theorem ReadsStatement.head {token : Token} {tokens rest : List Token} {statement : Statement}
    (h : ReadsStatement (token :: tokens) statement rest) :
    token.kind.startsStatement = true := by
  cases h with
  | declaration hk _ _ _ _ => rcases hk with hk | hk <;> rw [hk] <;> rfl
  | returnOf hk _ _ | bareReturn hk _ _ => rw [hk]; rfl
  | expression he _ =>
    have hopens := he.head
    cases hk : token.kind <;> first | rfl | (rw [hk] at hopens; cases hopens)

/-- A statement starts with a token that does not end statements. -/
theorem ReadsStatement.head_ne {token : Token} {tokens rest : List Token} {statement : Statement}
    (h : ReadsStatement (token :: tokens) statement rest) :
    ¬ (token.kind = .rightBrace ∨ token.kind = .eof) := by
  intro hk
  have hstarts := h.head
  rcases hk with hk | hk <;> rw [hk] at hstarts <;> cases hstarts

/-! ## What a reading stops at -/

theorem ReadsMoreNames.stops {tokens rest : List Token} {names : List Name}
    (h : ReadsMoreNames tokens names rest) :
    ∃ next more, rest = next :: more ∧ next.kind ≠ .comma := by
  induction h with
  | stop hne => exact ⟨_, _, rfl, hne⟩
  | cons _ _ _ ih => exact ih

theorem ReadsMoreArguments.stops : ∀ {tokens rest : List Token} {arguments : List Expression},
    ReadsMoreArguments tokens arguments rest → ∃ next more, rest = next :: more ∧ next.kind ≠ .comma
  | _, _, _, .stop hne => ⟨_, _, rfl, hne⟩
  | _, _, _, .cons _ _ hm => hm.stops

theorem ReadsClimb.stops : ∀ {floor : Precedence} {left e : Expression} {tokens rest : List Token},
    ReadsClimb floor left tokens e rest →
      ∃ next more, rest = next :: more ∧ ¬ floor < next.kind.precedence
  | _, _, _, _, _, .stop hstop => ⟨_, _, rfl, hstop⟩
  | _, _, _, _, _, .binary _ _ _ hc | _, _, _, _, _, .call _ _ _ hc => hc.stops

/-- An expression stops in front of a token that does not bind tighter than the floor. -/
theorem ReadsExpression.stops {floor : Precedence} {tokens rest : List Token} {e : Expression}
    (h : ReadsExpression floor tokens e rest) :
    ∃ next more, rest = next :: more ∧ ¬ floor < next.kind.precedence := by
  obtain ⟨_, hc⟩ := h
  exact hc.stops

/-! ## A reading is a derivation -/

theorem ReadsSemicolon.derivation {tokens rest : List Token} (h : ReadsSemicolon tokens rest) :
    Grammar.Semicolon tokens rest := by
  cases h with
  | absent _ => exact .absent
  | present hk => exact .present hk

theorem ReadsMoreNames.derivation {tokens rest : List Token} {names : List Name}
    (h : ReadsMoreNames tokens names rest) : Grammar.MoreNames tokens rest := by
  induction h with
  | stop _ => exact .none
  | cons hcomma hname _ ih => exact .cons hcomma hname ih

theorem ReadsNames.derivation {tokens rest : List Token} {names : List Name}
    (h : ReadsNames tokens names rest) :
    ∃ right, Grammar.Names tokens (right :: rest) ∧ right.kind = .rightParen := by
  cases h with
  | none hright => exact ⟨_, .none, hright⟩
  | cons hname hmore hright => exact ⟨_, .cons hname hmore.derivation, hright⟩

/-- What binds tighter than a floor binds at all. -/
theorem Precedence.ne_lowest_of_lt {floor p : Precedence} (h : floor < p) : p ≠ .lowest := by
  intro hlowest
  rw [hlowest] at h
  exact absurd h (Nat.not_lt_zero _)

/-- Nothing binds less tightly than the lowest floor. -/
theorem Precedence.eq_lowest_of_not_lt {p : Precedence} (h : ¬ lowest < p) : p = lowest := by
  cases p with
  | lowest => rfl
  | _ => exact absurd (by decide) h

/-- What binds at all and is no opening parenthesis stands between operands. -/
theorem isBinary_of_lt {floor : Precedence} {kind : Kind} (h : floor < kind.precedence)
    (hne : kind ≠ .leftParen) : Grammar.IsBinary kind := by
  have hlowest := Precedence.ne_lowest_of_lt h
  cases kind <;> simp_all [Grammar.IsBinary, Kind.precedence]

mutual

theorem ReadsExpression.derivation : ∀ {floor : Precedence} {tokens rest : List Token}
    {e : Expression}, ReadsExpression floor tokens e rest → Grammar.Expression tokens rest
  | _, _, _, _, .mk ho hc => .mk ho.derivation hc.derivation

theorem ReadsOpening.derivation : ∀ {tokens rest : List Token} {e : Expression},
    ReadsOpening tokens e rest → Grammar.Opening tokens rest
  | _, _, _, .identifier hk => .identifier hk
  | _, _, _, .number hk hvalue =>
    .number ((Grammar.isNumber_iff hk).mpr (Option.isSome_of_eq_some hvalue))
  | _, _, _, .boolean hk => .boolean hk
  | _, _, _, .unary hk he => .unary hk he.derivation
  | _, _, _, .group hleft he hright => .group hleft he.derivation hright
  | _, _, _, .ifThen hword hleft he hright hb _ =>
    .conditional hword hleft he.derivation hright hb.derivation .absent
  | _, _, _, .ifElse hword hleft he hright hb hnext ha =>
    .conditional hword hleft he.derivation hright hb.derivation (.present hnext ha.derivation)
  | _, _, _, .function hword hleft hn hb =>
    let ⟨_, hnames, hright⟩ := hn.derivation
    .function hword hleft hnames hright hb.derivation

theorem ReadsClimb.derivation : ∀ {floor : Precedence} {left e : Expression}
    {tokens rest : List Token}, ReadsClimb floor left tokens e rest →
      Grammar.Continuations tokens rest
  | _, _, _, _, _, .stop _ => .none
  | _, _, _, _, _, .binary hlt hne he hc =>
    .cons (.binary (isBinary_of_lt hlt hne) he.derivation) hc.derivation
  | _, _, _, _, _, .call _ hk ha hc =>
    let ⟨_, harguments, hright⟩ := ha.derivation
    .cons (.call hk harguments hright) hc.derivation

theorem ReadsArguments.derivation : ∀ {tokens rest : List Token} {arguments : List Expression},
    ReadsArguments tokens arguments rest →
      ∃ right, Grammar.Arguments tokens (right :: rest) ∧ right.kind = .rightParen
  | _, _, _, .none hright => ⟨_, .none, hright⟩
  | _, _, _, .cons he hm hright => ⟨_, .cons he.derivation hm.derivation, hright⟩

theorem ReadsMoreArguments.derivation : ∀ {tokens rest : List Token}
    {arguments : List Expression}, ReadsMoreArguments tokens arguments rest →
      Grammar.MoreArguments tokens rest
  | _, _, _, .stop _ => .none
  | _, _, _, .cons hcomma he hm => .cons hcomma he.derivation hm.derivation

theorem ReadsBlock.derivation : ∀ {tokens rest : List Token} {block : Block},
    ReadsBlock tokens block rest → Grammar.Block tokens rest
  | _, _, _, .mk hleft hs hright => .mk hleft hs.derivation hright

theorem ReadsStatements.derivation : ∀ {tokens rest : List Token} {statements : List Statement},
    ReadsStatements tokens statements rest → Grammar.Statements tokens rest
  | _, _, _, .stop _ => .none
  | _, _, _, .cons hs hss => .cons hs.derivation hss.derivation

theorem ReadsStatement.derivation : ∀ {tokens rest : List Token} {statement : Statement},
    ReadsStatement tokens statement rest → Grammar.Statement tokens rest
  | _, _, _, .declaration hword hname hsign he hs =>
    .declaration hword hname hsign he.derivation hs.derivation
  | _, _, _, .returnOf hword he hs => .returnOf hword he.derivation hs.derivation
  | _, _, _, .bareReturn hword hend hs => .bareReturn hword hend hs.derivation
  | _, _, _, .expression he hs => .expression he.derivation hs.derivation

end

/-- What has a reading is a program of the grammar. -/
theorem ReadsProgram.derivation {tokens : List Token} {program : Program}
    (h : ReadsProgram tokens program) : Grammar.Program tokens := by
  obtain ⟨hs, hlast⟩ := h
  exact .mk hs.derivation hlast

/-! ## A list of tokens has at most one reading -/

theorem ReadsSemicolon.unique {tokens rest rest' : List Token} (h : ReadsSemicolon tokens rest)
    (h' : ReadsSemicolon tokens rest') : rest = rest' := by
  cases h <;> cases h' <;> first | rfl | contradiction

theorem ReadsMoreNames.unique {tokens rest : List Token} {names : List Name}
    (h : ReadsMoreNames tokens names rest) :
    ∀ {names' : List Name} {rest' : List Token}, ReadsMoreNames tokens names' rest' →
      names = names' ∧ rest = rest' := by
  induction h with
  | stop hne =>
    intro _ _ h'
    cases h' with
    | stop _ => exact ⟨rfl, rfl⟩
    | cons hcomma _ _ => exact absurd hcomma hne
  | cons hcomma _ _ ih =>
    intro _ _ h'
    cases h' with
    | stop hne => exact absurd hcomma hne
    | cons _ _ hmore =>
      obtain ⟨rfl, rfl⟩ := ih hmore
      exact ⟨rfl, rfl⟩

theorem ReadsNames.unique {tokens rest rest' : List Token} {names names' : List Name}
    (h : ReadsNames tokens names rest) (h' : ReadsNames tokens names' rest') :
    names = names' ∧ rest = rest' := by
  cases h with
  | none hright =>
    cases h' with
    | none _ => exact ⟨rfl, rfl⟩
    | cons hname _ _ => simp [hright] at hname
  | cons hname hmore _ =>
    cases h' with
    | none hright => simp [hright] at hname
    | cons _ hmore' _ =>
      obtain ⟨rfl, hrest⟩ := hmore.unique hmore'
      cases hrest
      exact ⟨rfl, rfl⟩

-- Two readings of one list start with the same token, and the rules of a symbol ask for different
-- things of it. Where a form may end or go on, they ask for opposite things of the token behind.
mutual

theorem ReadsExpression.unique : ∀ {floor : Precedence} {tokens rest : List Token}
    {e : Expression}, ReadsExpression floor tokens e rest → ∀ {e' : Expression}
      {rest' : List Token}, ReadsExpression floor tokens e' rest' → e = e' ∧ rest = rest'
  | _, _, _, _, .mk ho hc => by
    intro h'
    obtain ⟨ho', hc'⟩ := h'
    obtain ⟨rfl, rfl⟩ := ho.unique ho'
    exact hc.unique hc'

theorem ReadsOpening.unique : ∀ {tokens rest : List Token} {e : Expression},
    ReadsOpening tokens e rest → ∀ {e' : Expression} {rest' : List Token},
      ReadsOpening tokens e' rest' → e = e' ∧ rest = rest'
  | _, _, _, .identifier hk => by
    intro h'
    cases h' <;> simp_all
  | _, _, _, .number hk hvalue => by
    intro h'
    cases h' <;> simp_all
  | _, _, _, .boolean hk => by
    intro h'
    rcases hk with hk | hk <;> cases h' <;> simp_all
  | _, _, _, .unary hk he => by
    intro h'
    cases h' with
    | unary _ he' =>
      obtain ⟨rfl, rfl⟩ := he.unique he'
      exact ⟨rfl, rfl⟩
    | _ => rcases hk with hk | hk <;> simp_all
  | _, _, _, .group hleft he _ => by
    intro h'
    cases h' with
    | group _ he' _ =>
      obtain ⟨rfl, hrest⟩ := he.unique he'
      cases hrest
      exact ⟨rfl, rfl⟩
    | _ => simp_all
  | _, _, _, .ifThen hword _ he _ hb hnext => by
    intro h'
    cases h' with
    | ifThen _ _ he' _ hb' _ =>
      obtain ⟨rfl, hmiddle⟩ := he.unique he'
      cases hmiddle
      obtain ⟨rfl, hrest⟩ := hb.unique hb'
      exact ⟨rfl, hrest⟩
    | ifElse _ _ he' _ hb' hnext' _ =>
      -- one reading has an `else` behind the block and the other has none
      obtain ⟨rfl, hmiddle⟩ := he.unique he'
      cases hmiddle
      obtain ⟨rfl, hrest⟩ := hb.unique hb'
      cases hrest
      exact absurd hnext' hnext
    | _ => simp_all
  | _, _, _, .ifElse hword _ he _ hb hnext ha => by
    intro h'
    cases h' with
    | ifThen _ _ he' _ hb' hnext' =>
      obtain ⟨rfl, hmiddle⟩ := he.unique he'
      cases hmiddle
      obtain ⟨rfl, hrest⟩ := hb.unique hb'
      cases hrest
      exact absurd hnext hnext'
    | ifElse _ _ he' _ hb' _ ha' =>
      obtain ⟨rfl, hmiddle⟩ := he.unique he'
      cases hmiddle
      obtain ⟨rfl, hbehind⟩ := hb.unique hb'
      cases hbehind
      obtain ⟨rfl, rfl⟩ := ha.unique ha'
      exact ⟨rfl, rfl⟩
    | _ => simp_all
  | _, _, _, .function hword _ hn hb => by
    intro h'
    cases h' with
    | function _ _ hn' hb' =>
      obtain ⟨rfl, rfl⟩ := hn.unique hn'
      obtain ⟨rfl, rfl⟩ := hb.unique hb'
      exact ⟨rfl, rfl⟩
    | _ => simp_all

theorem ReadsClimb.unique : ∀ {floor : Precedence} {left e : Expression}
    {tokens rest : List Token}, ReadsClimb floor left tokens e rest → ∀ {e' : Expression}
      {rest' : List Token}, ReadsClimb floor left tokens e' rest' → e = e' ∧ rest = rest'
  | _, _, _, _, _, .stop hstop => by
    intro h'
    cases h' with
    | stop _ => exact ⟨rfl, rfl⟩
    | binary hlt _ _ _ => exact absurd hlt hstop
    | call hlt hk _ _ => exact absurd (by rw [hk]; exact hlt) hstop
  | _, _, _, _, _, .binary hlt hne he hc => by
    intro h'
    cases h' with
    | stop hstop => exact absurd hlt hstop
    | binary _ _ he' hc' =>
      obtain ⟨rfl, rfl⟩ := he.unique he'
      exact hc.unique hc'
    | call _ hk _ _ =>
      -- an opening parenthesis binds like an operator, but it is none
      exact absurd hk hne
  | _, _, _, _, _, .call hlt hk ha hc => by
    intro h'
    cases h' with
    | stop hstop => exact absurd (by rw [hk]; exact hlt) hstop
    | binary _ hne _ _ => exact absurd hk hne
    | call _ _ ha' hc' =>
      obtain ⟨rfl, rfl⟩ := ha.unique ha'
      exact hc.unique hc'

theorem ReadsArguments.unique : ∀ {tokens rest : List Token} {arguments : List Expression},
    ReadsArguments tokens arguments rest → ∀ {arguments' : List Expression} {rest' : List Token},
      ReadsArguments tokens arguments' rest' → arguments = arguments' ∧ rest = rest'
  | _, _, _, .none hright => by
    intro h'
    cases h' with
    | none _ => exact ⟨rfl, rfl⟩
    | cons he _ _ => exact absurd he.head (by simp [hright, Kind.opens])
  | _, _, _, .cons he hm _ => by
    intro h'
    cases h' with
    | none hright => exact absurd he.head (by simp [hright, Kind.opens])
    | cons he' hm' _ =>
      obtain ⟨rfl, rfl⟩ := he.unique he'
      obtain ⟨rfl, hrest⟩ := hm.unique hm'
      cases hrest
      exact ⟨rfl, rfl⟩

theorem ReadsMoreArguments.unique : ∀ {tokens rest : List Token} {arguments : List Expression},
    ReadsMoreArguments tokens arguments rest → ∀ {arguments' : List Expression}
      {rest' : List Token}, ReadsMoreArguments tokens arguments' rest' →
        arguments = arguments' ∧ rest = rest'
  | _, _, _, .stop hne => by
    intro h'
    cases h' with
    | stop _ => exact ⟨rfl, rfl⟩
    | cons hcomma _ _ => exact absurd hcomma hne
  | _, _, _, .cons hcomma he hm => by
    intro h'
    cases h' with
    | stop hne => exact absurd hcomma hne
    | cons _ he' hm' =>
      obtain ⟨rfl, rfl⟩ := he.unique he'
      obtain ⟨rfl, rfl⟩ := hm.unique hm'
      exact ⟨rfl, rfl⟩

theorem ReadsBlock.unique : ∀ {tokens rest : List Token} {block : Block},
    ReadsBlock tokens block rest → ∀ {block' : Block} {rest' : List Token},
      ReadsBlock tokens block' rest' → block = block' ∧ rest = rest'
  | _, _, _, .mk _ hs _ => by
    intro h'
    obtain ⟨_, hs', _⟩ := h'
    obtain ⟨rfl, hrest⟩ := hs.unique hs'
    cases hrest
    exact ⟨rfl, rfl⟩

theorem ReadsStatements.unique : ∀ {tokens rest : List Token} {statements : List Statement},
    ReadsStatements tokens statements rest → ∀ {statements' : List Statement} {rest' : List Token},
      ReadsStatements tokens statements' rest' → statements = statements' ∧ rest = rest'
  | _, _, _, .stop hends => by
    intro h'
    cases h' with
    | stop _ => exact ⟨rfl, rfl⟩
    | cons hs _ => exact absurd hends hs.head_ne
  | _, _, _, .cons hs hss => by
    intro h'
    cases h' with
    | stop hends => exact absurd hends hs.head_ne
    | cons hs' hss' =>
      obtain ⟨rfl, rfl⟩ := hs.unique hs'
      obtain ⟨rfl, rfl⟩ := hss.unique hss'
      exact ⟨rfl, rfl⟩

theorem ReadsStatement.unique : ∀ {tokens rest : List Token} {statement : Statement},
    ReadsStatement tokens statement rest → ∀ {statement' : Statement} {rest' : List Token},
      ReadsStatement tokens statement' rest' → statement = statement' ∧ rest = rest'
  | _, _, _, .declaration hword _ _ he hs => by
    intro h'
    cases h' with
    | declaration _ _ _ he' hs' =>
      obtain ⟨rfl, rfl⟩ := he.unique he'
      exact ⟨rfl, hs.unique hs'⟩
    | expression he' _ =>
      exact absurd he'.head (by rcases hword with h | h <;> rw [h] <;> decide)
    | _ => simp_all
  | _, _, _, .returnOf hword he hs => by
    intro h'
    cases h' with
    | returnOf _ he' hs' =>
      obtain ⟨rfl, rfl⟩ := he.unique he'
      exact ⟨rfl, hs.unique hs'⟩
    | bareReturn _ hend _ => exact absurd hend he.not_endsReturn
    | expression he' _ => exact absurd he'.head (by simp [hword, Kind.opens])
    | _ => simp_all
  | _, _, _, .bareReturn hword hend hs => by
    intro h'
    cases h' with
    | returnOf _ he' _ => exact absurd hend he'.not_endsReturn
    | bareReturn _ _ hs' => exact ⟨rfl, hs.unique hs'⟩
    | expression he' _ => exact absurd he'.head (by simp [hword, Kind.opens])
    | _ => simp_all
  | _, _, _, .expression he hs => by
    intro h'
    cases h' with
    | expression he' hs' =>
      obtain ⟨rfl, rfl⟩ := he.unique he'
      exact ⟨rfl, hs.unique hs'⟩
    | declaration hword _ _ _ _ =>
      exact absurd he.head (by rcases hword with h | h <;> rw [h] <;> decide)
    | returnOf hword _ _ | bareReturn hword _ _ =>
      exact absurd he.head (by simp [hword, Kind.opens])

end

/-- A list of tokens has at most one reading. -/
theorem ReadsProgram.unique {tokens : List Token} {program program' : Program}
    (h : ReadsProgram tokens program) (h' : ReadsProgram tokens program') :
    program = program' := by
  obtain ⟨hs, _⟩ := h
  obtain ⟨hs', _⟩ := h'
  obtain ⟨rfl, _⟩ := hs.unique hs'
  rfl

end SayLang
