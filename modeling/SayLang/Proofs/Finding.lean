import SayLang.Parser.Climb
import SayLang.Proofs.FirstDiagnostic
import SayLang.Proofs.Locality
import SayLang.Proofs.Outlook

/-!
# The parser finds what is read

Where a list of tokens starts with something read, a parser in front of the list finds it: nothing
is found wrong, the value is the one read, and the tokens left are the ones ahead. `Finds` says that
of a piece of the parser.

> `ReadsEach.found`: a parser in front of statements answers them first, whatever else it answers.

There is one lemma for each form of the grammar, and the recursion is on the reading. The tokens
behind what is read may be wrong, so this says nothing of a whole program.
-/

namespace SayLang

variable {κ : Type} [Cursor κ]

namespace Parse

variable {α : Type} {limit start : Nat} {tokens middle rest : List Token} {cursor : κ}

/-- The first token has that kind. -/
def StartsWith (kind : Kind) (tokens : List Token) : Prop :=
  ∃ token more, tokens = token :: more ∧ token.kind = kind

/-- The run is clean and has that value, and those tokens are ahead after it. -/
abbrev Finds (limit : Nat) (rest : List Token) (value : α) (p : Parse κ α) (cursor : κ) : Prop :=
  Ensures (fun _ _ => False) p cursor fun found after =>
    value = found ∧ Cursor.Faces limit (Cursor.advance after) rest ∧
      Cursor.position cursor ≤ Cursor.position after

/-- That, wherever the cursor is in front of the tokens, from a position on. -/
def FindsAt (limit start : Nat) (tokens rest : List Token) (value : α) (p : Parse κ α) : Prop :=
  ∀ ⦃cursor : κ⦄, start ≤ Cursor.position cursor → Cursor.Faces limit cursor tokens →
    Finds limit rest value p cursor

/-- The same of a piece that is entered one token earlier. -/
def FindsAhead (limit start : Nat) (tokens rest : List Token) (value : α) (p : Parse κ α) : Prop :=
  ∀ ⦃cursor : κ⦄, start ≤ Cursor.position cursor →
    Cursor.Faces limit (Cursor.advance cursor) tokens → Finds limit rest value p cursor

theorem FindsAt.mono {start' : Nat} {value : α} {p : Parse κ α}
    (h : FindsAt limit start tokens rest value p) (hle : start ≤ start') :
    FindsAt limit start' tokens rest value p :=
  fun _ hstart => h (Nat.le_trans hle hstart)

theorem FindsAhead.mono {start' : Nat} {value : α} {p : Parse κ α}
    (h : FindsAhead limit start tokens rest value p) (hle : start ≤ start') :
    FindsAhead limit start' tokens rest value p :=
  fun _ hstart => h (Nat.le_trans hle hstart)

/-- What a run that finds something answers. -/
theorem Finds.clean {value : α} {p : Parse κ α} (h : Finds limit rest value p cursor) :
    (p.run cursor).events.filterMap Event.diagnostic? = [] ∧ value = (p.run cursor).value ∧
      Cursor.Faces limit (Cursor.advance (p.run cursor).state) rest ∧
      Cursor.position cursor ≤ Cursor.position (p.run cursor).state := by
  unfold Finds Ensures at h
  split at h
  next hnone => exact ⟨(diagnostics_eq_nil_iff_firstDiagnostic _).mpr hnone, h⟩
  next => exact h.elim

/-- A piece that answers at once finds what it answers. -/
theorem finds_of_run_eq {value : α} {p : Parse κ α} (h : p.run cursor = ⟨value, cursor, []⟩)
    (hcursor : Cursor.Faces limit (Cursor.advance cursor) rest) :
    Finds limit rest value p cursor := by
  unfold Finds Ensures
  rw [h]
  exact ⟨rfl, hcursor, Nat.le_refl _⟩

theorem Finds.some {value : α} {p : Parse κ α} (h : Finds limit rest value p cursor) :
    Finds limit rest (some value) (do return some (← p)) cursor := by
  rw [Finds, ensures_bind]
  refine Ensures.mono h ?_
  rintro _ after ⟨rfl, hafter, hle⟩
  rw [ensures_pure]
  exact ⟨rfl, hafter, hle⟩

variable [LawfulCursor κ]

/-- A token that is ahead is found. -/
theorem ensures_expecting_of_faces {faulty : Nat → Diagnostic → Prop} {kind : Kind} {token : Token}
    {broken : Expression → α} {next : Parse κ α} {post : α → κ → Prop}
    (h : Cursor.Faces limit (Cursor.advance cursor) (token :: rest)) (hk : token.kind = kind)
    (hnext : Ensures faulty next (Cursor.advance cursor) post) :
    Ensures faulty (expecting kind broken next) cursor post := by
  have hpeek : (Cursor.peek cursor).kind = kind := by
    rw [← LawfulCursor.current_advance, h.current_eq, hk]
  rw [ensures_expecting]
  exact ⟨fun _ => hnext, fun hne => absurd hpeek hne⟩

/-! ## Openings -/

theorem identifier_finds {token : Token} (h : Cursor.Faces limit cursor (token :: rest)) :
    Finds limit rest (.identifier (.ofToken token)) identifier cursor := by
  simp only [Finds, identifier, ensures_bind, ensures_name, ensures_pure, h.current_eq]
  exact ⟨trivial, h.advance, Nat.le_refl _⟩

theorem number_finds {token : Token} {value : Integer}
    (h : Cursor.Faces limit cursor (token :: rest))
    (hvalue : Integer.ofDigits? token.literal = some value) :
    Finds limit rest (.number token value) number cursor := by
  simp only [Finds, number, ensures_bind, ensures_current, h.current_eq, hvalue, ensures_pure]
  exact ⟨trivial, h.advance, Nat.le_refl _⟩

theorem boolean_finds {token : Token} (h : Cursor.Faces limit cursor (token :: rest)) :
    Finds limit rest (.boolean token (token.kind = .trueWord)) boolean cursor := by
  simp only [Finds, boolean, ensures_bind, ensures_current, ensures_pure]
  exact ⟨by rw [h.current_eq], h.advance, Nat.le_refl _⟩

theorem unary_finds {operator : Token} {e : Expression} {operand : Parse κ Expression}
    (h : Cursor.Faces limit cursor (operator :: tokens))
    (hoperand : FindsAt limit (Cursor.position cursor + 1) tokens rest e operand) :
    Finds limit rest (.unary operator e) (unary operand) cursor := by
  have hposition := LawfulCursor.position_advance cursor
  simp only [Finds, unary, ensures_bind, ensures_current, ensures_advance, ensures_pure]
  refine (hoperand (Nat.le_of_eq hposition.symm) h.advance).mono ?_
  rintro _ after ⟨rfl, hafter, hle⟩
  exact ⟨by rw [h.current_eq], hafter, by omega⟩

theorem group_finds {left right : Token} {e : Expression} {inner : Parse κ Expression}
    (h : Cursor.Faces limit cursor (left :: tokens))
    (hinner : FindsAt limit (Cursor.position cursor + 1) tokens (right :: rest) e inner)
    (hright : right.kind = .rightParen) : Finds limit rest e (group inner) cursor := by
  have hposition := LawfulCursor.position_advance cursor
  simp only [Finds, group, ensures_bind, ensures_advance]
  refine (hinner (Nat.le_of_eq hposition.symm) h.advance).mono ?_
  rintro _ after ⟨rfl, hafter, hle⟩
  have hposition' := LawfulCursor.position_advance after
  refine ensures_expecting_of_faces hafter hright ?_
  rw [ensures_pure]
  exact ⟨rfl, hafter.advance, by omega⟩

section conditional

variable {word left right : Token} {e : Expression} {consequence : Block} {behind : List Token}
variable {condition : Parse κ Expression}
variable {block : Parse κ Block}

/-- What stands behind the first branch decides the form of a conditional. -/
theorem conditional_finds {whole : Expression}
    (h : Cursor.Faces limit cursor (word :: left :: tokens)) (hleft : left.kind = .leftParen)
    (hcondition : FindsAt limit (Cursor.position cursor + 1) tokens (right :: middle) e condition)
    (hright : right.kind = .rightParen)
    (hbrace : StartsWith .leftBrace middle)
    (hblock : FindsAt limit (Cursor.position cursor + 1) middle behind consequence block)
    (hother :
      (∃ next more, behind = next :: more ∧ next.kind ≠ .elseWord ∧ rest = behind ∧
        whole = .ifThen word e consequence) ∨
      ∃ next more alternative, behind = next :: more ∧ next.kind = .elseWord ∧
        StartsWith .leftBrace more ∧ whole = .ifElse word e consequence alternative ∧
        FindsAt limit (Cursor.position cursor + 1) more rest alternative block) :
    Finds limit rest whole (conditional condition block) cursor := by
  obtain ⟨brace, more, rfl, hbrace⟩ := hbrace
  have hposition₁ := LawfulCursor.position_advance cursor
  have hposition₂ := LawfulCursor.position_advance (Cursor.advance cursor)
  simp only [Finds, conditional, ensures_bind, ensures_current]
  refine ensures_expecting_of_faces h.advance hleft ?_
  simp only [ensures_bind, ensures_advance]
  refine (hcondition (by omega) h.advance.advance).mono ?_
  rintro _ after₁ ⟨rfl, hafter₁, hle₁⟩
  have hposition₃ := LawfulCursor.position_advance after₁
  have hposition₄ := LawfulCursor.position_advance (Cursor.advance after₁)
  refine ensures_expecting_of_faces hafter₁ hright ?_
  refine ensures_expecting_of_faces hafter₁.advance hbrace ?_
  rw [ensures_bind]
  refine (hblock (by omega) hafter₁.advance).mono ?_
  rintro _ after₂ ⟨rfl, hafter₂, hle₂⟩
  rw [ensures_bind, ensures_peek, ← LawfulCursor.current_advance]
  rcases hother with ⟨next, more, rfl, hnext, rfl, rfl⟩ |
    ⟨next, _, alternative, rfl, helse, ⟨brace', more', rfl, hbrace'⟩, rfl, hother⟩
  · rw [hafter₂.current_eq, if_neg hnext, ensures_pure, h.current_eq]
    exact ⟨rfl, hafter₂, by omega⟩
  · have hposition₅ := LawfulCursor.position_advance after₂
    have hposition₆ := LawfulCursor.position_advance (Cursor.advance after₂)
    rw [hafter₂.current_eq, if_pos helse, ensures_bind, ensures_advance]
    refine ensures_expecting_of_faces hafter₂.advance hbrace' ?_
    rw [ensures_bind]
    refine (hother (by omega) hafter₂.advance).mono ?_
    rintro _ after₃ ⟨rfl, hafter₃, hle₃⟩
    rw [ensures_pure, h.current_eq]
    exact ⟨rfl, hafter₃, by omega⟩

end conditional

theorem moreNames_finds {names : List Name} (h : ReadsMoreNames tokens names rest) :
    ∀ {fuel : Nat} {cursor : κ}, limit ≤ Cursor.position cursor + fuel →
      Cursor.Faces limit (Cursor.advance cursor) tokens →
      Finds limit rest (.ok names) (moreNames fuel) cursor := by
  induction h with
  | @stop next rest hne =>
    intro fuel cursor _ hcursor
    have hpeek : (Cursor.peek cursor).kind ≠ .comma := by
      rwa [← LawfulCursor.current_advance, hcursor.current_eq]
    exact finds_of_run_eq (run_moreNames_of_ne hpeek) hcursor
  | @cons comma name tokens rest names hcomma hname _ ih =>
    intro fuel cursor hfuel hcursor
    have hlimit := hcursor.position_add
    have hposition₁ := LawfulCursor.position_advance cursor
    have hposition₂ := LawfulCursor.position_advance (Cursor.advance cursor)
    have hpeek : (Cursor.peek cursor).kind = .comma := by
      rw [← LawfulCursor.current_advance, hcursor.current_eq, hcomma]
    rw [List.length_cons] at hlimit
    obtain ⟨fuel, rfl⟩ := Nat.exists_eq_add_of_le' (show 1 ≤ fuel by omega)
    rw [moreNames, Finds, ensures_bind, ensures_peek, if_pos hpeek, ensures_bind, ensures_advance]
    refine ensures_expecting_of_faces hcursor.advance hname ?_
    simp only [ensures_bind, ensures_name]
    refine (ih (by omega) hcursor.advance.advance).mono ?_
    rintro _ after ⟨rfl, hafter, hle⟩
    rw [ensures_pure, hcursor.advance.current_eq]
    exact ⟨rfl, hafter, by omega⟩

theorem parameters_finds {fuel : Nat} {names : List Name} (h : ReadsNames tokens names rest)
    (hfuel : limit ≤ Cursor.position cursor + fuel)
    (hcursor : Cursor.Faces limit (Cursor.advance cursor) tokens) :
    Finds limit rest (.ok names) (parameters fuel) cursor := by
  have hposition := LawfulCursor.position_advance cursor
  rw [Finds, parameters, ensures_bind, ensures_peek, ← LawfulCursor.current_advance]
  cases h with
  | none hright =>
    rw [hcursor.current_eq, if_pos hright, ensures_bind, ensures_advance, ensures_pure]
    exact ⟨rfl, hcursor.advance, by omega⟩
  | cons hname hmore hright =>
    rw [hcursor.current_eq, if_neg (by rw [hname]; decide)]
    refine ensures_expecting_of_faces hcursor hname ?_
    simp only [ensures_bind, ensures_name]
    refine (moreNames_finds hmore (by omega) hcursor.advance).mono ?_
    rintro _ after ⟨rfl, hafter, hle⟩
    have hposition' := LawfulCursor.position_advance after
    refine ensures_expecting_of_faces hafter hright ?_
    rw [ensures_pure, hcursor.current_eq]
    exact ⟨rfl, hafter.advance, by omega⟩

theorem function_finds {fuel : Nat} {word left : Token} {names : List Name} {body : Block}
    {block : Parse κ Block}
    (h : Cursor.Faces limit cursor (word :: left :: tokens)) (hleft : left.kind = .leftParen)
    (hnames : ReadsNames tokens names middle) (hbrace : StartsWith .leftBrace middle)
    (hfuel : limit ≤ Cursor.position cursor + fuel)
    (hblock : FindsAt limit (Cursor.position cursor + 1) middle rest body block) :
    Finds limit rest (.function word names body) (function (parameters fuel) block) cursor := by
  obtain ⟨brace, more, rfl, hbrace⟩ := hbrace
  have hposition₁ := LawfulCursor.position_advance cursor
  simp only [Finds, function, ensures_bind, ensures_current]
  refine ensures_expecting_of_faces h.advance hleft ?_
  rw [ensures_bind]
  refine (parameters_finds hnames (by omega) h.advance.advance).mono ?_
  rintro _ after₁ ⟨rfl, hafter₁, hle₁⟩
  have hposition₂ := LawfulCursor.position_advance after₁
  refine ensures_expecting_of_faces hafter₁ hbrace ?_
  rw [ensures_bind]
  refine (hblock (by omega) hafter₁).mono ?_
  rintro _ after₂ ⟨rfl, hafter₂, hle₂⟩
  rw [ensures_pure, h.current_eq]
  exact ⟨rfl, hafter₂, by omega⟩

/-! ## Continuations -/

theorem arguments_finds {expression : Parse κ Expression} {more : Parse κ (List Expression)}
    {right : Token} {first : Expression} {others : List Expression}
    (h : Cursor.Faces limit (Cursor.advance cursor) tokens)
    (hne : (Cursor.peek cursor).kind ≠ .rightParen)
    (hexpression : FindsAt limit (Cursor.position cursor + 1) tokens middle first expression)
    (hmore : FindsAhead limit (Cursor.position cursor + 1) middle (right :: rest) others more)
    (hright : right.kind = .rightParen) :
    Finds limit rest (.ok (first :: others)) (arguments expression more) cursor := by
  have hposition := LawfulCursor.position_advance cursor
  rw [Finds, arguments, ensures_bind, ensures_peek, if_neg hne]
  simp only [ensures_bind, ensures_advance]
  refine (hexpression (by omega) h).mono ?_
  rintro _ after₁ ⟨rfl, hafter₁, hle₁⟩
  refine (hmore (by omega) hafter₁).mono ?_
  rintro _ after₂ ⟨rfl, hafter₂, hle₂⟩
  have hposition' := LawfulCursor.position_advance after₂
  refine ensures_expecting_of_faces hafter₂ hright ?_
  rw [ensures_pure]
  exact ⟨rfl, hafter₂.advance, by omega⟩

theorem noArguments_finds {expression : Parse κ Expression} {more : Parse κ (List Expression)}
    {right : Token} (h : Cursor.Faces limit (Cursor.advance cursor) (right :: rest))
    (hright : right.kind = .rightParen) :
    Finds limit rest (.ok []) (arguments expression more) cursor := by
  have hposition := LawfulCursor.position_advance cursor
  rw [Finds, arguments, ensures_bind, ensures_peek, ← LawfulCursor.current_advance, h.current_eq,
    if_pos hright, ensures_bind, ensures_advance, ensures_pure]
  exact ⟨rfl, h.advance, by omega⟩

/-! ## Statements -/

theorem optionalSemicolon_finds (h : ReadsSemicolon tokens rest)
    (hcursor : Cursor.Faces limit (Cursor.advance cursor) tokens) :
    Finds limit rest () optionalSemicolon cursor := by
  have hposition := LawfulCursor.position_advance cursor
  rw [Finds, ensures_optionalSemicolon, ← LawfulCursor.current_advance]
  cases h with
  | absent hne =>
    rw [hcursor.current_eq, if_neg hne]
    exact ⟨rfl, hcursor, Nat.le_refl _⟩
  | present hk =>
    rw [hcursor.current_eq, if_pos hk]
    exact ⟨rfl, hcursor.advance, by omega⟩

section statements

variable {expression : Parse κ Expression} {value : Expression}

theorem declaration_finds {word name sign : Token}
    (h : Cursor.Faces limit cursor (word :: name :: sign :: tokens))
    (hname : name.kind = .identifier) (hsign : sign.kind = .assign)
    (hexpression : FindsAt limit (Cursor.position cursor) tokens middle value expression)
    (hs : ReadsSemicolon middle rest) :
    Finds limit rest (some (.say word (.ofToken name) value)) (declaration expression) cursor := by
  have hposition₁ := LawfulCursor.position_advance cursor
  have hposition₂ := LawfulCursor.position_advance (Cursor.advance cursor)
  have hposition₃ := LawfulCursor.position_advance (Cursor.advance (Cursor.advance cursor))
  simp only [Finds, declaration, ensures_bind, ensures_current]
  refine ensures_expecting_of_faces h.advance hname ?_
  simp only [ensures_bind, ensures_name]
  refine ensures_expecting_of_faces h.advance.advance hsign ?_
  simp only [ensures_bind, ensures_advance]
  refine (hexpression (by omega) h.advance.advance.advance).mono ?_
  rintro _ after₁ ⟨rfl, hafter₁, hle₁⟩
  refine (optionalSemicolon_finds hs hafter₁).mono ?_
  rintro _ after₂ ⟨-, hafter₂, hle₂⟩
  rw [ensures_pure, h.current_eq, h.advance.current_eq]
  exact ⟨rfl, hafter₂, by omega⟩

theorem bareReturn_finds {word : Token} (h : Cursor.Faces limit cursor (word :: tokens))
    (hend : Grammar.EndsReturn tokens) (hs : ReadsSemicolon tokens rest) :
    Finds limit rest (.bareReturn word) (returning expression) cursor := by
  have hpeek : (Cursor.peek cursor).kind = .semicolon ∨ (Cursor.peek cursor).kind = .rightBrace ∨
      (Cursor.peek cursor).kind = .eof := by
    cases tokens with
    | nil => exact hend.elim
    | cons token tokens => rwa [← LawfulCursor.current_advance, h.advance.current_eq]
  simp only [Finds, returning, ensures_bind, ensures_current, ensures_peek, if_pos hpeek]
  refine (optionalSemicolon_finds hs h.advance).mono ?_
  rintro _ after ⟨-, hafter, hle⟩
  rw [ensures_pure, h.current_eq]
  exact ⟨rfl, hafter, hle⟩

theorem returnOf_finds {word : Token} (h : Cursor.Faces limit cursor (word :: tokens))
    (hend : ¬ Grammar.EndsReturn tokens) (hne : tokens ≠ [])
    (hexpression : FindsAt limit (Cursor.position cursor) tokens middle value expression)
    (hs : ReadsSemicolon middle rest) :
    Finds limit rest (.returnOf word value) (returning expression) cursor := by
  have hposition := LawfulCursor.position_advance cursor
  have hpeek : ¬ ((Cursor.peek cursor).kind = .semicolon ∨ (Cursor.peek cursor).kind = .rightBrace ∨
      (Cursor.peek cursor).kind = .eof) := by
    obtain ⟨token, more, rfl⟩ := List.exists_cons_of_ne_nil hne
    rwa [← LawfulCursor.current_advance, h.advance.current_eq]
  simp only [Finds, returning, ensures_bind, ensures_current, ensures_peek, if_neg hpeek,
    ensures_advance]
  refine (hexpression (by omega) h.advance).mono ?_
  rintro _ after₁ ⟨rfl, hafter₁, hle₁⟩
  refine (optionalSemicolon_finds hs hafter₁).mono ?_
  rintro _ after₂ ⟨-, hafter₂, hle₂⟩
  rw [ensures_pure, h.current_eq]
  exact ⟨rfl, hafter₂, by omega⟩

theorem expressionStatement_finds {token : Token} (h : Cursor.Faces limit cursor (token :: tokens))
    (hexpression : FindsAt limit (Cursor.position cursor) (token :: tokens) middle value expression)
    (hs : ReadsSemicolon middle rest) :
    Finds limit rest (.expression token value) (expressionStatement expression) cursor := by
  simp only [Finds, expressionStatement, ensures_bind, ensures_current]
  refine (hexpression (Nat.le_refl _) h).mono ?_
  rintro _ after₁ ⟨rfl, hafter₁, hle₁⟩
  refine (optionalSemicolon_finds hs hafter₁).mono ?_
  rintro _ after₂ ⟨-, hafter₂, hle₂⟩
  rw [ensures_pure, h.current_eq]
  exact ⟨rfl, hafter₂, by omega⟩

end statements

end Parse

/-! ## The recursion on the reading -/

open Parse

variable {limit : Nat}

theorem ReadsExpression.ne_nil {floor : Precedence} {tokens rest : List Token} {e : Expression}
    (h : ReadsExpression floor tokens e rest) : tokens ≠ [] := by
  obtain ⟨ho, _⟩ := h
  cases ho <;> exact List.cons_ne_nil _ _

theorem ReadsStatement.ne_nil {tokens rest : List Token} {s : Statement}
    (h : ReadsStatement tokens s rest) : tokens ≠ [] := by
  cases h <;> exact List.cons_ne_nil _ _

/-- A cursor in front of a statement is not where statements end. -/
theorem ReadsStatement.current_ne {tokens rest : List Token} {s : Statement} {cursor : κ}
    (h : ReadsStatement tokens s rest) (hcursor : Cursor.Faces limit cursor tokens) :
    (Cursor.current cursor).kind ≠ .rightBrace ∧ (Cursor.current cursor).kind ≠ .eof := by
  obtain ⟨token, more, rfl⟩ := List.exists_cons_of_ne_nil h.ne_nil
  rw [hcursor.current_eq]
  exact not_or.mp h.head_ne

theorem ReadsBlock.head {tokens rest : List Token} {block : Block}
    (h : ReadsBlock tokens block rest) : StartsWith .leftBrace tokens := by
  obtain ⟨hleft, _, _⟩ := h
  exact ⟨_, _, rfl, hleft⟩

mutual

theorem ReadsExpression.found [LawfulCursor κ] : ∀ {floor : Precedence} {tokens rest : List Token}
    {e : Expression},
    ReadsExpression floor tokens e rest → ∀ fuel : Nat,
      FindsAt limit (limit + 1 - fuel) tokens rest e (expression fuel floor : Parse κ Expression)
  | floor, _, _, _, .mk ho hc => by
    intro fuel cursor hfuel h
    have hlimit := h.position_add
    obtain ⟨fuel, rfl⟩ := Nat.exists_eq_add_of_le' (show 1 ≤ fuel by omega)
    obtain ⟨opening, hopening, hfinds⟩ := ho.found fuel (by omega) h
    simp only [Finds, expression, ensures_bind, ensures_position, ensures_record_expression,
      ensures_current]
    rw [hopening]
    show Ensures _ (opening >>= climb fuel floor) cursor _
    rw [ensures_bind]
    refine hfinds.mono ?_
    rintro _ after₁ ⟨rfl, hafter₁, hle₁⟩
    refine (hc.found fuel (by omega) hafter₁).mono ?_
    rintro _ after₂ ⟨rfl, hafter₂, hle₂⟩
    exact ⟨rfl, hafter₂, by omega⟩

theorem ReadsOpening.found [LawfulCursor κ] : ∀ {tokens rest : List Token} {e : Expression},
    ReadsOpening tokens e rest → ∀ (fuel : Nat) {cursor : κ},
      limit ≤ Cursor.position cursor + fuel → Cursor.Faces limit cursor tokens →
      ∃ opening, opening? (expression fuel) (parameters fuel) (block (blockStatements fuel))
        (Cursor.current cursor).kind = some opening ∧ Finds limit rest e opening cursor
  | _, _, _, .identifier hk => by
    intro fuel cursor _ h
    rw [h.current_eq, hk]
    exact ⟨_, rfl, identifier_finds h⟩
  | _, _, _, .number hk hvalue => by
    intro fuel cursor _ h
    rw [h.current_eq, hk]
    exact ⟨_, rfl, number_finds h hvalue⟩
  | _, _, _, .boolean hk => by
    intro fuel cursor _ h
    have hfinds := boolean_finds h
    rw [h.current_eq]
    rcases hk with hk | hk <;> rw [hk] at hfinds ⊢ <;> exact ⟨_, rfl, hfinds⟩
  | _, _, _, .unary hk he => by
    intro fuel cursor hfuel h
    have hfinds := unary_finds h ((he.found fuel).mono (by omega))
    rw [h.current_eq]
    rcases hk with hk | hk <;> rw [hk] <;> exact ⟨_, rfl, hfinds⟩
  | _, _, _, .group hleft he hright => by
    intro fuel cursor hfuel h
    rw [h.current_eq, hleft]
    refine ⟨_, rfl, group_finds h ((he.found fuel).mono (by omega)) hright⟩
  | _, _, _, .ifThen hword hleft he hright hb hnext => by
    intro fuel cursor hfuel h
    rw [h.current_eq, hword]
    refine ⟨_, rfl, conditional_finds h hleft ((he.found fuel).mono (by omega)) hright hb.head
      ((hb.found fuel).mono (by omega)) (.inl ⟨_, _, rfl, hnext, rfl, rfl⟩)⟩
  | _, _, _, .ifElse hword hleft he hright hb helse ha => by
    intro fuel cursor hfuel h
    rw [h.current_eq, hword]
    refine ⟨_, rfl, conditional_finds h hleft ((he.found fuel).mono (by omega)) hright hb.head
      ((hb.found fuel).mono (by omega))
      (.inr ⟨_, _, _, rfl, helse, ha.head, rfl, (ha.found fuel).mono (by omega)⟩)⟩
  | _, _, _, .function hword hleft hn hb => by
    intro fuel cursor hfuel h
    rw [h.current_eq, hword]
    exact ⟨_, rfl, function_finds h hleft hn hb.head hfuel ((hb.found fuel).mono (by omega))⟩

theorem ReadsClimb.found [LawfulCursor κ] : ∀ {floor : Precedence} {left e : Expression}
    {tokens rest : List Token}, ReadsClimb floor left tokens e rest → ∀ fuel : Nat,
      FindsAhead limit (limit - fuel) tokens rest e (climb fuel floor left : Parse κ Expression)
  | _, left, _, _, _, .stop hstop => by
    intro fuel cursor _ h
    refine finds_of_run_eq (run_climb_of_not_lt left ?_) h
    rwa [← LawfulCursor.current_advance, h.current_eq]
  | floor, left, _, _, _, .binary hlt hne he hc => by
    intro fuel cursor hfuel h
    have hlimit := h.position_add
    have hposition₁ := LawfulCursor.position_advance cursor
    have hposition₂ := LawfulCursor.position_advance (Cursor.advance cursor)
    obtain ⟨fuel, rfl⟩ := Nat.exists_eq_add_of_le' (show 1 ≤ fuel by omega)
    rw [Finds, climb, ensures_bind, ensures_peek, ← LawfulCursor.current_advance, h.current_eq,
      if_pos hlt]
    simp only [ensures_bind, ensures_advance, continuation, if_neg hne, binary, ensures_current,
      ensures_pure, h.current_eq]
    refine (he.found fuel (by omega) h.advance).mono ?_
    rintro _ after₁ ⟨rfl, hafter₁, hle₁⟩
    refine (hc.found fuel (by omega) hafter₁).mono ?_
    rintro _ after₂ ⟨rfl, hafter₂, hle₂⟩
    exact ⟨rfl, hafter₂, by omega⟩
  | floor, left, _, _, _, .call hlt hk ha hc => by
    intro fuel cursor hfuel h
    have hlimit := h.position_add
    have hposition := LawfulCursor.position_advance cursor
    obtain ⟨fuel, rfl⟩ := Nat.exists_eq_add_of_le' (show 1 ≤ fuel by omega)
    rw [Finds, climb, ensures_bind, ensures_peek, ← LawfulCursor.current_advance, h.current_eq, hk,
      if_pos (show floor < Kind.leftParen.precedence from hlt)]
    simp only [ensures_bind, ensures_advance, continuation, if_pos, call, ensures_current,
      h.current_eq]
    refine (ha.found fuel (by omega) h.advance).mono ?_
    rintro _ after₁ ⟨rfl, hafter₁, hle₁⟩
    rw [ensures_pure]
    refine (hc.found fuel (by omega) hafter₁).mono ?_
    rintro _ after₂ ⟨rfl, hafter₂, hle₂⟩
    exact ⟨rfl, hafter₂, by omega⟩

theorem ReadsArguments.found [LawfulCursor κ] : ∀ {tokens rest : List Token}
    {args : List Expression}, ReadsArguments tokens args rest → ∀ fuel : Nat,
      FindsAhead limit (limit - fuel) tokens rest (.ok args)
        (arguments (expression fuel .lowest) (moreArguments fuel) : Parse κ _)
  | _, _, _, .none hright => fun _ _ _ h => noArguments_finds h hright
  | tokens, _, _, .cons he hm hright => by
    intro fuel cursor hfuel h
    refine arguments_finds h ?_ ((he.found fuel).mono (by omega)) ((hm.found fuel).mono (by omega))
      hright
    -- what starts an expression closes nothing
    obtain ⟨token, more, htokens⟩ := List.exists_cons_of_ne_nil he.ne_nil
    have hhead := htokens ▸ he
    have hcurrent := htokens ▸ h
    intro hright
    have hopens := hhead.head
    rw [← hcurrent.current_eq, LawfulCursor.current_advance, hright] at hopens
    cases hopens

theorem ReadsMoreArguments.found [LawfulCursor κ] : ∀ {tokens rest : List Token}
    {args : List Expression}, ReadsMoreArguments tokens args rest → ∀ fuel : Nat,
      FindsAhead limit (limit - fuel) tokens rest args (moreArguments fuel : Parse κ _)
  | _, _, _, .stop hne => by
    intro fuel cursor _ h
    refine finds_of_run_eq (run_moreArguments_of_ne ?_) h
    rwa [← LawfulCursor.current_advance, h.current_eq]
  | _, _, _, .cons hcomma he hm => by
    intro fuel cursor hfuel h
    have hlimit := h.position_add
    have hposition₁ := LawfulCursor.position_advance cursor
    have hposition₂ := LawfulCursor.position_advance (Cursor.advance cursor)
    obtain ⟨fuel, rfl⟩ := Nat.exists_eq_add_of_le' (show 1 ≤ fuel by omega)
    rw [Finds, moreArguments, ensures_bind, ensures_peek, ← LawfulCursor.current_advance,
      h.current_eq, if_pos hcomma]
    simp only [ensures_bind, ensures_advance, ensures_pure]
    refine (he.found fuel (by omega) h.advance).mono ?_
    rintro _ after₁ ⟨rfl, hafter₁, hle₁⟩
    refine (hm.found fuel (by omega) hafter₁).mono ?_
    rintro _ after₂ ⟨rfl, hafter₂, hle₂⟩
    exact ⟨rfl, hafter₂, by omega⟩

theorem ReadsBlock.found [LawfulCursor κ] : ∀ {tokens rest : List Token} {b : Block},
    ReadsBlock tokens b rest → ∀ fuel : Nat,
      FindsAt limit (limit + 1 - fuel) tokens rest b (block (blockStatements fuel) : Parse κ Block)
  | _, _, _, .mk hleft hs hright => by
    intro fuel cursor hfuel h
    have hposition := LawfulCursor.position_advance cursor
    simp only [Finds, block, ensures_bind, ensures_current, ensures_advance, ensures_pure]
    refine (hs.found ⟨_, rfl, hright⟩ fuel (by omega) h.advance).mono ?_
    rintro _ after ⟨rfl, hafter, hle⟩
    exact ⟨by rw [h.current_eq], hafter.advance, by omega⟩

theorem ReadsStatements.found [LawfulCursor κ] : ∀ {tokens rest : List Token}
    {statements : List Statement}, ReadsStatements tokens statements rest →
      (∃ right ∈ rest.head?, right.kind = .rightBrace) → ∀ (fuel : Nat) {cursor : κ},
      limit + 2 ≤ Cursor.position cursor + fuel → Cursor.Faces limit cursor tokens →
      Ensures (fun _ _ => False) (blockStatements fuel) cursor fun found after =>
        statements = found ∧ Cursor.Faces limit after rest ∧
          Cursor.position cursor ≤ Cursor.position after
  | _, _, _, .stop _, ⟨_, hnext, hright⟩ => by
    cases hnext
    intro fuel cursor hfuel h
    have hlimit := h.position_add
    obtain ⟨fuel, rfl⟩ := Nat.exists_eq_add_of_le' (show 1 ≤ fuel by omega)
    rw [blockStatements, ensures_bind, ensures_current, h.current_eq, hright]
    exact ⟨rfl, h, Nat.le_refl _⟩
  | _, _, _, .cons hs hss, hright => by
    intro fuel cursor hfuel h
    have hlimit := h.position_add
    obtain ⟨fuel, rfl⟩ := Nat.exists_eq_add_of_le' (show 1 ≤ fuel by omega)
    have hends := hs.current_ne h
    rw [blockStatements, ensures_bind, ensures_current]
    split
    next hk => exact absurd hk hends.1
    next hk => exact absurd hk hends.2
    next =>
      simp only [ensures_bind, ensures_advance, ensures_pure]
      refine (hs.found fuel (by omega) h).mono ?_
      rintro _ after₁ ⟨rfl, hafter₁, hle₁⟩
      have hposition := LawfulCursor.position_advance after₁
      refine (hss.found hright fuel (by omega) hafter₁).mono ?_
      rintro _ after₂ ⟨rfl, hafter₂, hle₂⟩
      exact ⟨rfl, hafter₂, by omega⟩

theorem ReadsStatement.found [LawfulCursor κ] : ∀ {tokens rest : List Token} {s : Statement},
    ReadsStatement tokens s rest → ∀ fuel : Nat,
      FindsAt limit (limit + 1 - fuel) tokens rest (some s)
        (statement (expression fuel .lowest) : Parse κ _)
  | _, _, _, .declaration hword hname hsign he hs => by
    intro fuel cursor hfuel h
    have hfinds := declaration_finds h hname hsign ((he.found fuel).mono (by omega)) hs
    simp only [Finds, statement, ensures_bind, ensures_current, ensures_position,
      ensures_record_statement, h.current_eq]
    rcases hword with hword | hword <;> rw [hword] <;> exact hfinds
  | _, _, _, .returnOf hword he hs => by
    intro fuel cursor hfuel h
    simp only [Finds, statement, ensures_bind, ensures_current, ensures_position,
      ensures_record_statement, h.current_eq, hword]
    exact (returnOf_finds h he.not_endsReturn he.ne_nil ((he.found fuel).mono (by omega)) hs).some
  | _, _, _, .bareReturn hword hend hs => by
    intro fuel cursor hfuel h
    simp only [Finds, statement, ensures_bind, ensures_current, ensures_position,
      ensures_record_statement, h.current_eq, hword]
    exact (bareReturn_finds h hend hs).some
  | _, _, _, .expression he hs => by
    intro fuel cursor hfuel h
    have hopens := he.head
    have hfinds := expressionStatement_finds h ((he.found fuel).mono (by omega)) hs
    simp only [Finds, statement, ensures_bind, ensures_current, ensures_position,
      ensures_record_statement, h.current_eq]
    split
    next hk => rw [hk] at hopens; cases hopens
    next hk => rw [hk] at hopens; cases hopens
    next hk => rw [hk] at hopens; cases hopens
    next => exact hfinds.some

end

/-- A parser in front of statements answers them first. It goes on in front of the tokens behind
them, with fuel left for these. -/
theorem ReadsEach.found [LawfulCursor κ] {tokens rest : List Token} {statements : List Statement}
    (h : ReadsEach tokens statements rest) :
    ∀ {fuel : Nat} {cursor : κ}, limit + 2 ≤ Cursor.position cursor + fuel →
      Cursor.Faces limit cursor tokens →
      ∃ (left : Nat) (after : κ), limit + 2 ≤ Cursor.position after + left ∧
        Cursor.Faces limit after rest ∧
        ((Parse.statements fuel).run cursor).value =
          statements ++ ((Parse.statements left).run after).value ∧
        ((Parse.statements fuel).run cursor).events.filterMap Event.diagnostic? =
          ((Parse.statements left).run after).events.filterMap Event.diagnostic? := by
  induction h with
  | nil => exact fun hfuel hcursor => ⟨_, _, hfuel, hcursor, rfl, rfl⟩
  | cons hs _ ih =>
    intro fuel cursor hfuel hcursor
    have hlimit := hcursor.position_add
    obtain ⟨fuel, rfl⟩ := Nat.exists_eq_add_of_le' (show 1 ≤ fuel by omega)
    obtain ⟨hclean, hvalue, hafter, hle⟩ := (hs.found fuel (by omega) hcursor).clean
    have hposition := LawfulCursor.position_advance
      ((statement (expression fuel .lowest)).run cursor).state
    obtain ⟨left, after, hleft, hrest, hvalues, hdiagnostics⟩ :=
      ih (show limit + 2 ≤ _ + fuel by omega) hafter
    refine ⟨left, after, hleft, hrest, ?_, ?_⟩
    · rw [run_statements_of_ne (hs.current_ne hcursor).2, ← hvalue, hvalues]
      rfl
    · rw [run_statements_of_ne (hs.current_ne hcursor).2, List.filterMap_append, hclean,
        hdiagnostics]
      rfl

end SayLang
