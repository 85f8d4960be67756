import SayLang.Proofs.FirstDiagnostic
import SayLang.Proofs.Reading
import SayLang.Proofs.Recognizer

/-!
# Where the parser stands

`Stands tokens cursor goals` ties a parser to the recognizer: the cursor is at some place among the
tokens, and the recognizer, having read the tokens before that place, treats the token there as if
`goals` were left. `Leaves` says how a piece of the parser ends when it finds nothing wrong: on the
last token of what it reads, with its value the reading of that.

> `Stands.advance`: one token is read by both.
> `Stands.refused`: where the recognizer goes on with nothing, it refuses the token there.
> `Stands.expecting`: a token asked for is read, or it is the one refused.

A token is treated as if goals were left, and not with these goals left, because the parser decides
by the token ahead: it looks for further arguments where a closing parenthesis will do, and the
recognizer knows the difference only by the next token.
-/

namespace SayLang

open Recognizer

/-! ## What a diagnostic is about -/

/-- The problem names the token: by its kind, or by its digits when these are out of range. -/
def Problem.Names (token : Token) : Problem → Prop
  | noExpression kind => kind = token.kind
  | unexpected _ found => found = token.kind
  | notAnInteger literal => token.kind = .number ∧ literal = token.literal

/-- The diagnostic gives the line of the token and names the token. -/
structure Diagnostic.IsAbout (found : Diagnostic) (token : Token) : Prop where
  /-- The line is that of the token. -/
  line : found.line = token.line
  /-- The problem names the token. -/
  names : found.problem.Names token

/-- The recognizer reads what stands before the position and refuses the token there, and the
diagnostic is about that token. -/
def RefusedAt (tokens : List Token) (position : Nat) (found : Diagnostic) : Prop :=
  ∃ goals token, run [.program] (tokens.take position) = some goals ∧
    tokens[position]? = some token ∧ step goals token = none ∧ found.IsAbout token

namespace RefusedAt

variable {tokens : List Token} {position : Nat} {found : Diagnostic}

/-- The recognizer does not get beyond a token that it refuses. -/
theorem run_take_succ (h : RefusedAt tokens position found) :
    run [.program] (tokens.take (position + 1)) = none := by
  obtain ⟨goals, token, hrun, hget, hstep, _⟩ := h
  rw [List.take_add_one, hget, Option.toList_some, run_append, hrun]
  show (step goals token).bind _ = none
  rw [hstep]
  rfl

/-- So what is refused at some place is not accepted as a whole. -/
theorem not_accepts (h : RefusedAt tokens position found) : ¬ Accepts [.program] tokens := by
  intro haccepts
  rw [Accepts, ← List.take_append_drop (position + 1) tokens, run_append, h.run_take_succ]
    at haccepts
  cases haccepts

end RefusedAt

/-! ## Standing at a place among tokens -/

variable {κ : Type} [Cursor κ]

/-- The tokens from the cursor on. -/
def Cursor.remaining (tokens : List Token) (cursor : κ) : List Token :=
  tokens.drop (Cursor.position cursor)

/-- The cursor is at a place among the tokens where the recognizer treats the next token as it would
with these goals left. -/
structure Stands (tokens : List Token) (cursor : κ) (goals : List Goal) : Prop where
  /-- The tokens end with the end of input. -/
  upToEof : UpToEof tokens
  /-- The place is one of a token. -/
  lt : Cursor.position cursor < tokens.length
  /-- The cursor sees the tokens from there on. -/
  sees : Cursor.Sees cursor (Cursor.remaining tokens cursor)
  /-- The recognizer gets there. -/
  reached : ∃ before, run [.program] (tokens.take (Cursor.position cursor)) = some before ∧
    step before (Cursor.current cursor) = step goals (Cursor.current cursor)

namespace Stands

variable {tokens : List Token} {cursor : κ} {goals : List Goal}

/-- The token looked at is the one at the place. -/
theorem getElem?_eq (h : Stands tokens cursor goals) :
    tokens[Cursor.position cursor]? = some (Cursor.current cursor) := by
  have hlt := h.lt
  have hsees := h.sees
  rw [Cursor.remaining, List.drop_eq_getElem_cons hlt] at hsees
  have hcurrent : Cursor.current cursor = tokens[Cursor.position cursor] := hsees.1
  rw [List.getElem?_eq_getElem hlt, hcurrent]

/-- Goals that the token ahead does not tell apart may be exchanged. -/
theorem congr {goals' : List Goal} (h : Stands tokens cursor goals)
    (hstep : step goals (Cursor.current cursor) = step goals' (Cursor.current cursor)) :
    Stands tokens cursor goals' := by
  obtain ⟨before, hrun, hbefore⟩ := h.reached
  exact ⟨h.upToEof, h.lt, h.sees, before, hrun, hbefore.trans hstep⟩

/-- A goal that the token ahead passes over may be left out. -/
theorem pass {goal : Goal} (h : Stands tokens cursor (goal :: goals))
    (hpass : goal.react (Cursor.current cursor) = .pass) : Stands tokens cursor goals :=
  h.congr (step_of_pass hpass goals)

/-- Where nothing goes on, the recognizer refuses the token. -/
theorem refused {found : Diagnostic} (h : Stands tokens cursor goals)
    (hstep : step goals (Cursor.current cursor) = none)
    (habout : found.IsAbout (Cursor.current cursor)) :
    RefusedAt tokens (Cursor.position cursor) found := by
  obtain ⟨before, hrun, hbefore⟩ := h.reached
  exact ⟨before, _, hrun, h.getElem?_eq, hbefore.trans hstep, habout⟩

variable [LawfulCursor κ]

theorem remaining_eq (h : Stands tokens cursor goals) :
    Cursor.remaining tokens cursor =
      Cursor.current cursor :: Cursor.remaining tokens (Cursor.advance cursor) := by
  have hlt := h.lt
  have hget := h.getElem?_eq
  rw [List.getElem?_eq_getElem hlt, Option.some.injEq] at hget
  rw [Cursor.remaining, List.drop_eq_getElem_cons hlt, hget, Cursor.remaining,
    LawfulCursor.position_advance]

/-- At the end of input the recognizer has accepted all tokens. -/
theorem accepts (h : Stands tokens cursor [.program]) (heof : (Cursor.current cursor).kind = .eof) :
    Accepts [.program] tokens ∧ Cursor.remaining tokens cursor = [Cursor.current cursor] := by
  obtain ⟨before, hrun, hbefore⟩ := h.reached
  have hread : step [.program] (Cursor.current cursor) = some [] := by
    simp [step, Goal.react, heof]
  have hlength := h.upToEof.length_of_eof h.getElem?_eq heof
  have hposition := LawfulCursor.position_advance cursor
  have hremaining : Cursor.remaining tokens cursor = [Cursor.current cursor] := by
    rw [h.remaining_eq, Cursor.remaining, List.drop_eq_nil_of_le (by omega)]
  refine ⟨?_, hremaining⟩
  rw [Accepts, ← List.take_append_drop (Cursor.position cursor) tokens, run_append, hrun]
  show run before (Cursor.remaining tokens cursor) = some []
  rw [hremaining, run, hbefore, hread]
  rfl

/-- One token is read by the parser and by the recognizer. -/
theorem advance {behind : List Goal} (h : Stands tokens cursor goals)
    (hstep : step goals (Cursor.current cursor) = some behind)
    (hne : (Cursor.current cursor).kind ≠ .eof) : Stands tokens (Cursor.advance cursor) behind := by
  have hposition := LawfulCursor.position_advance cursor
  refine ⟨h.upToEof, ?_, ?_, behind, ?_, rfl⟩
  · have hlt := h.upToEof.lt_length h.getElem?_eq hne
    omega
  · have hsees := h.sees
    rw [h.remaining_eq] at hsees
    exact hsees.2
  · -- the recognizer reads the token from where it is, and leaves what the goals leave
    obtain ⟨before, hrun, hbefore⟩ := h.reached
    have htake : tokens.take (Cursor.position cursor + 1) =
        tokens.take (Cursor.position cursor) ++ [Cursor.current cursor] := by
      rw [List.take_add_one, h.getElem?_eq, Option.toList_some]
    rw [hposition, htake, run_append, hrun]
    show (step before _).bind _ = _
    rw [hbefore, hstep]
    rfl

/-- The token ahead is asked for where the recognizer reads it, and is at fault where not. -/
theorem expecting {α : Type} {kind : Kind} {broken : Expression → α} {next : Parse κ α}
    {post : α → κ → Prop} (h : Stands tokens (Cursor.advance cursor) goals)
    (behind : List Goal) (hne : kind ≠ .eof)
    (hread : (Cursor.current (Cursor.advance cursor)).kind = kind →
      step goals (Cursor.current (Cursor.advance cursor)) = some behind)
    (hrefuse : (Cursor.current (Cursor.advance cursor)).kind ≠ kind →
      step goals (Cursor.current (Cursor.advance cursor)) = none)
    (hnext : (Cursor.current (Cursor.advance cursor)).kind = kind →
      Stands tokens (Cursor.advance (Cursor.advance cursor)) behind →
      Parse.Ensures (RefusedAt tokens) next (Cursor.advance cursor) post) :
    Parse.Ensures (RefusedAt tokens) (Parse.expecting kind broken next) cursor post := by
  have hcurrent := LawfulCursor.current_advance cursor
  rw [Parse.ensures_expecting, ← hcurrent]
  constructor
  · intro hk
    exact hnext hk (h.advance (hread hk) (by rw [hk]; exact hne))
  · intro hk
    rw [← LawfulCursor.position_advance cursor]
    exact h.refused (hrefuse hk) ⟨rfl, rfl⟩

/-- The same where a token of that kind is the foremost goal. -/
theorem expecting_token {α : Type} {kind : Kind} {broken : Expression → α} {next : Parse κ α}
    {post : α → κ → Prop} (h : Stands tokens (Cursor.advance cursor) (.token kind :: goals))
    (hne : kind ≠ .eof)
    (hnext : (Cursor.current (Cursor.advance cursor)).kind = kind →
      Stands tokens (Cursor.advance (Cursor.advance cursor)) goals →
      Parse.Ensures (RefusedAt tokens) next (Cursor.advance cursor) post) :
    Parse.Ensures (RefusedAt tokens) (Parse.expecting kind broken next) cursor post := by
  refine h.expecting goals hne ?_ ?_ hnext
  · intro hk
    exact step_token_of_eq hk goals
  · intro hk
    exact step_token_of_ne hk goals

end Stands

/-! ## What a piece leaves behind -/

variable [LawfulCursor κ]

/-- A piece of the parser ends on the last token of what it reads, with the recognizer at the token
after that. -/
structure Leaves {α : Type} (tokens : List Token) (goals : List Goal) (start : Nat)
    (reads : α → List Token → Prop) (value : α) (after : κ) : Prop where
  /-- The recognizer is at the token after the last one. -/
  stands : Stands tokens (Cursor.advance after) goals
  /-- The value is the reading. -/
  reads : reads value (Cursor.remaining tokens (Cursor.advance after))
  /-- The cursor has not moved back. -/
  le : start ≤ Cursor.position after

/-- An expression that may go on with any operator leaves a token that continues nothing. -/
theorem Leaves.ended {tokens read : List Token} {goals : List Goal} {start : Nat}
    {e : Expression} {after : κ}
    (h : Leaves tokens (.continuations :: goals) start (ReadsExpression .lowest read) e after) :
    Stands tokens (Cursor.advance after) goals := by
  obtain ⟨next, more, hrest, hstops⟩ := h.reads.stops
  rw [h.stands.remaining_eq] at hrest
  cases hrest
  have hlowest := Precedence.eq_lowest_of_not_lt hstops
  refine h.stands.pass ?_
  rw [Goal.react, continuation?_eq_none_iff.mpr hlowest]

/-- What the parser of an expression is relied on for, from a position on. -/
def ParsesExpression (tokens : List Token) (limit : Nat) (floor : Precedence)
    (p : Parse κ Expression) : Prop :=
  ∀ (cursor : κ) (goals : List Goal), limit ≤ Cursor.position cursor →
    Stands tokens cursor (.expression :: goals) →
    Parse.Ensures (RefusedAt tokens) p cursor
      (Leaves tokens (.continuations :: goals) (Cursor.position cursor)
        (ReadsExpression floor (Cursor.remaining tokens cursor)))

omit [LawfulCursor κ] in
/-- What can be relied on from a position on can be relied on from later ones on. -/
theorem ParsesExpression.mono {tokens : List Token} {limit limit' : Nat} {floor : Precedence}
    {p : Parse κ Expression} (h : ParsesExpression tokens limit floor p) (hle : limit ≤ limit') :
    ParsesExpression tokens limit' floor p :=
  fun cursor goals hlimit => h cursor goals (hle.trans hlimit)

/-- What the parser of a block is relied on for, from a position on. -/
def ParsesBlock (tokens : List Token) (limit : Nat) (p : Parse κ Block) : Prop :=
  ∀ (cursor : κ) (goals : List Goal), limit ≤ Cursor.position cursor →
    Stands tokens cursor (.token .leftBrace :: .block :: goals) →
    (Cursor.current cursor).kind = .leftBrace →
    Parse.Ensures (RefusedAt tokens) p cursor
      (Leaves tokens goals (Cursor.position cursor) (ReadsBlock (Cursor.remaining tokens cursor)))

end SayLang
