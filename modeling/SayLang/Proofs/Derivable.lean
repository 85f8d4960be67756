import SayLang.Proofs.Derivation
import SayLang.Proofs.Recognizer

/-!
# The recognizer accepts what the grammar derives

> `program_iff_accepts`: a list of tokens is a program of the grammar exactly when the recognizer
> accepts it.

From acceptance to a derivation, every goal has the meaning of a symbol of the grammar
(`Goal.Meets`), and one step turns what meets the goals behind a token into what meets the goals
before it.

From a derivation to acceptance, the recognizer is greedy where the grammar leaves a choice. A
statement that starts with `-` or `(` behind an expression is read as a continuation of that
expression. For `-` both readings leave the same goals behind. For `(` the goals differ, and those
of the greedy reading accept more: where a closing parenthesis is asked for, further arguments are
accepted as well (`Goal.Covers`).
-/

namespace SayLang

open Recognizer

/-! ## From acceptance to a derivation -/

/-- The tokens start with what the goal asks for, and `rest` is left behind it. -/
def Goal.Meets : Goal → List Token → List Token → Prop
  | program, tokens, rest => ∃ last, Grammar.Statements tokens (last :: rest) ∧ last.kind = .eof
  | block, tokens, rest =>
    ∃ right, Grammar.Statements tokens (right :: rest) ∧ right.kind = .rightBrace
  | expression, tokens, rest => Grammar.Expression tokens rest
  | continuations, tokens, rest => Grammar.Continuations tokens rest
  | semicolon, tokens, rest => Grammar.Semicolon tokens rest
  | returned, tokens, rest =>
    Grammar.Expression tokens rest ∨ (tokens = rest ∧ Grammar.EndsReturn tokens)
  | alternative, tokens, rest => Grammar.Alternative tokens rest
  | token kind, tokens, rest => ∃ found, tokens = found :: rest ∧ found.kind = kind
  | parameters, tokens, rest =>
    ∃ right, Grammar.Names tokens (right :: rest) ∧ right.kind = .rightParen
  | moreParameters, tokens, rest =>
    ∃ right, Grammar.MoreNames tokens (right :: rest) ∧ right.kind = .rightParen
  | arguments, tokens, rest =>
    ∃ right, Grammar.Arguments tokens (right :: rest) ∧ right.kind = .rightParen
  | moreArguments, tokens, rest =>
    ∃ right, Grammar.MoreArguments tokens (right :: rest) ∧ right.kind = .rightParen

/-- The tokens start with what the goals ask for one after the other. -/
def Goal.MeetAll : List Goal → List Token → List Token → Prop
  | [], tokens, rest => tokens = rest
  | goal :: goals, tokens, rest => ∃ middle, goal.Meets tokens middle ∧ MeetAll goals middle rest

namespace Recognizer

theorem meetAll_append (first second : List Goal) (tokens rest : List Token) :
    Goal.MeetAll (first ++ second) tokens rest ↔
      ∃ middle, Goal.MeetAll first tokens middle ∧ Goal.MeetAll second middle rest := by
  induction first generalizing tokens with
  | nil => simp [Goal.MeetAll]
  | cons goal first ih =>
    simp only [List.cons_append, Goal.MeetAll, ih]
    constructor
    · intro h
      obtain ⟨middle, hgoal, last, hfirst, hsecond⟩ := h
      exact ⟨last, ⟨middle, hgoal, hfirst⟩, hsecond⟩
    · intro h
      obtain ⟨last, ⟨middle, hgoal, hfirst⟩, hsecond⟩ := h
      exact ⟨middle, hgoal, last, hfirst, hsecond⟩

/-- A token that starts an expression and what meets the goals behind it are an expression. -/
theorem expression_of_opening? {token : Token} {behind : List Goal} {tokens rest : List Token}
    (h : opening? token = some behind) (hmeet : Goal.MeetAll behind tokens rest) :
    Grammar.Expression (token :: tokens) rest := by
  unfold opening? at h
  split at h
  next hk =>
    cases h
    obtain ⟨middle, hc, rfl⟩ := hmeet
    exact .mk (.identifier hk) hc
  next hk =>
    cases h
    obtain ⟨middle, hc, rfl⟩ := hmeet
    exact .mk (.boolean (.inl hk)) hc
  next hk =>
    cases h
    obtain ⟨middle, hc, rfl⟩ := hmeet
    exact .mk (.boolean (.inr hk)) hc
  next hk =>
    split at h
    next hsome =>
      cases h
      obtain ⟨middle, hc, rfl⟩ := hmeet
      exact .mk (.number ((Grammar.isNumber_iff hk).mpr hsome)) hc
    next => cases h
  next hk =>
    cases h
    obtain ⟨middle, he, rfl⟩ := hmeet
    exact .mk (.unary (.inl hk) he) .none
  next hk =>
    cases h
    obtain ⟨middle, he, rfl⟩ := hmeet
    exact .mk (.unary (.inr hk) he) .none
  next hk =>
    cases h
    obtain ⟨_, he, _, ⟨right, rfl, hright⟩, _, hc, rfl⟩ := hmeet
    exact .mk (.group hk he hright) hc
  next hk =>
    cases h
    obtain ⟨_, ⟨left, rfl, hleft⟩, _, he, _, ⟨right, rfl, hright⟩, _, ⟨brace, rfl, hbrace⟩, _,
      ⟨close, hs, hclose⟩, _, ha, _, hc, rfl⟩ := hmeet
    exact .mk (.conditional hk hleft he hright (.mk hbrace hs hclose) ha) hc
  next hk =>
    cases h
    obtain ⟨_, ⟨left, rfl, hleft⟩, _, ⟨right, hn, hright⟩, _, ⟨brace, rfl, hbrace⟩, _,
      ⟨close, hs, hclose⟩, _, hc, rfl⟩ := hmeet
    exact .mk (.function hk hleft hn hright (.mk hbrace hs hclose)) hc
  next => cases h

theorem continuation_of_continuation? {token : Token} {behind : List Goal}
    {tokens rest : List Token} (h : continuation? token = some behind)
    (hmeet : Goal.MeetAll behind tokens rest) : Grammar.Continuations (token :: tokens) rest := by
  unfold continuation? at h
  split at h
  case h_9 hk =>
    cases h
    obtain ⟨_, ⟨right, ha, hright⟩, _, hc, rfl⟩ := hmeet
    exact .cons (.call hk ha hright) hc
  case h_10 => cases h
  all_goals
    next hk =>
      cases h
      obtain ⟨_, he, rfl⟩ := hmeet
      exact .cons (.binary (by simp [Grammar.IsBinary, hk]) he) .none

theorem statement_of_statement? {token : Token} {behind : List Goal} {tokens rest : List Token}
    (h : statement? token = some behind) (hmeet : Goal.MeetAll behind tokens rest) :
    Grammar.Statement (token :: tokens) rest := by
  unfold statement? at h
  split at h
  next hk =>
    cases h
    obtain ⟨_, ⟨name, rfl, hname⟩, _, ⟨sign, rfl, hsign⟩, _, he, _, hs, rfl⟩ := hmeet
    exact .declaration (.inl hk) hname hsign he hs
  next hk =>
    cases h
    obtain ⟨_, ⟨name, rfl, hname⟩, _, ⟨sign, rfl, hsign⟩, _, he, _, hs, rfl⟩ := hmeet
    exact .declaration (.inr hk) hname hsign he hs
  next hk =>
    cases h
    obtain ⟨_, he | ⟨rfl, hend⟩, _, hs, rfl⟩ := hmeet
    · exact .returnOf hk he hs
    · exact .bareReturn hk hend hs
  next =>
    obtain ⟨first, hfirst, rfl⟩ := Option.map_eq_some_iff.mp h
    obtain ⟨middle, he, _, hs, rfl⟩ := (meetAll_append _ _ _ _).mp hmeet
    exact .expression (expression_of_opening? hfirst he) hs

/-- The goals that take the place of one goal mean what it means. -/
theorem meets_of_reads {goal : Goal} {token : Token} {behind : List Goal} {tokens rest : List Token}
    (h : goal.Reads token behind) (hmeet : Goal.MeetAll behind tokens rest) :
    goal.Meets (token :: tokens) rest := by
  cases goal with
  | program =>
    rcases h with ⟨heof, rfl⟩ | ⟨first, hfirst, rfl⟩
    · cases hmeet
      exact ⟨token, .none, heof⟩
    · obtain ⟨_, hs, _, ⟨last, hrest, hlast⟩, rfl⟩ := (meetAll_append _ _ _ _).mp hmeet
      exact ⟨last, .cons (statement_of_statement? hfirst hs) hrest, hlast⟩
  | block =>
    rcases h with ⟨hright, rfl⟩ | ⟨first, hfirst, rfl⟩
    · cases hmeet
      exact ⟨token, .none, hright⟩
    · obtain ⟨_, hs, _, ⟨right, hrest, hright⟩, rfl⟩ := (meetAll_append _ _ _ _).mp hmeet
      exact ⟨right, .cons (statement_of_statement? hfirst hs) hrest, hright⟩
  | expression => exact expression_of_opening? h hmeet
  | returned => exact .inl (expression_of_opening? h hmeet)
  | continuations => exact continuation_of_continuation? h hmeet
  | semicolon =>
    obtain ⟨hsemicolon, rfl⟩ := h
    cases hmeet
    exact .present hsemicolon
  | alternative =>
    obtain ⟨hword, rfl⟩ := h
    obtain ⟨_, ⟨left, rfl, hleft⟩, _, ⟨right, hs, hright⟩, rfl⟩ := hmeet
    exact .present hword (.mk hleft hs hright)
  | token kind =>
    obtain ⟨hkind, rfl⟩ := h
    cases hmeet
    exact ⟨token, rfl, hkind⟩
  | parameters =>
    rcases h with ⟨hright, rfl⟩ | ⟨hname, rfl⟩
    · cases hmeet
      exact ⟨token, .none, hright⟩
    · obtain ⟨_, ⟨right, hn, hright⟩, rfl⟩ := hmeet
      exact ⟨right, .cons hname hn, hright⟩
  | moreParameters =>
    rcases h with ⟨hright, rfl⟩ | ⟨hcomma, rfl⟩
    · cases hmeet
      exact ⟨token, .none, hright⟩
    · obtain ⟨_, ⟨name, rfl, hname⟩, _, ⟨right, hn, hright⟩, rfl⟩ := hmeet
      exact ⟨right, .cons hcomma hname hn, hright⟩
  | arguments =>
    rcases h with ⟨hright, rfl⟩ | ⟨first, hfirst, rfl⟩
    · cases hmeet
      exact ⟨token, .none, hright⟩
    · obtain ⟨_, he, _, ⟨right, hm, hright⟩, rfl⟩ := (meetAll_append _ _ _ _).mp hmeet
      exact ⟨right, .cons (expression_of_opening? hfirst he) hm, hright⟩
  | moreArguments =>
    rcases h with ⟨hright, rfl⟩ | ⟨hcomma, rfl⟩
    · cases hmeet
      exact ⟨token, .none, hright⟩
    · obtain ⟨_, he, _, ⟨right, hm, hright⟩, rfl⟩ := hmeet
      exact ⟨right, .cons hcomma he hm, hright⟩

/-- A goal that is passed over asks for nothing. -/
theorem meets_of_pass {goal : Goal} {token : Token} {tokens : List Token}
    (h : goal.react token = .pass) : goal.Meets (token :: tokens) (token :: tokens) := by
  cases goal with
  | program | block | arguments =>
    simp only [Goal.react] at h
    split at h
    · cases h
    · exact absurd h (Reaction.ofGoals?_ne_pass _)
  | expression => exact absurd h (Reaction.ofGoals?_ne_pass _)
  | continuations => exact .none
  | semicolon | alternative => exact .absent
  | returned =>
    simp only [Goal.react] at h
    split at h
    next hend => exact .inr ⟨rfl, hend⟩
    next => exact absurd h (Reaction.ofGoals?_ne_pass _)
  | token | parameters | moreParameters | moreArguments =>
    simp only [Goal.react] at h
    split at h <;> (try split at h) <;> cases h

/-- One step turns what meets the goals behind a token into what meets the goals before it. -/
theorem meetAll_of_step {token : Token} {tokens rest : List Token} {goals : List Goal} :
    ∀ {behind : List Goal}, step goals token = some behind →
      Goal.MeetAll behind tokens rest → Goal.MeetAll goals (token :: tokens) rest := by
  induction goals with
  | nil => intro behind h; simp [step] at h
  | cons goal goals ih =>
    intro behind h hmeet
    cases hreact : goal.react token with
    | read first =>
      rw [step_of_read hreact] at h
      cases h
      obtain ⟨middle, hfirst, hgoals⟩ := (meetAll_append _ _ _ _).mp hmeet
      exact ⟨middle, meets_of_reads (Goal.reads_of_react hreact) hfirst, hgoals⟩
    | pass =>
      -- the goal is met by nothing, and the token is left to the others
      rw [step_of_pass hreact] at h
      exact ⟨_, meets_of_pass hreact, ih h hmeet⟩
    | refuse =>
      rw [step_of_refuse hreact] at h
      cases h

/-- Tokens that are accepted meet the goals. -/
theorem meetAll_of_accepts {tokens : List Token} :
    ∀ {goals : List Goal}, Accepts goals tokens → Goal.MeetAll goals tokens [] := by
  induction tokens with
  | nil =>
    intro goals h
    cases h
    rfl
  | cons token tokens ih =>
    intro goals h
    obtain ⟨behind, hstep, hrest⟩ := accepts_cons.mp h
    exact meetAll_of_step hstep (ih hrest)

end Recognizer

/-! ## From a derivation to acceptance -/

/-- The second goal accepts what the first does: they are the same, or further arguments may stand
in front of the closing parenthesis that the first asks for. -/
def Goal.Covers (goal goal' : Goal) : Prop :=
  goal = goal' ∨ (goal = .token .rightParen ∧ goal' = .moreArguments)

namespace Recognizer

theorem covers_refl (goals : List Goal) : List.Forall₂ Goal.Covers goals goals :=
  List.forall₂_same.mpr fun _ _ => .inl rfl

/-- A step from goals that cover others leaves goals that cover what the others leave. -/
theorem step_covers {token : Token} {goals goals' : List Goal}
    (hcovers : List.Forall₂ Goal.Covers goals goals') :
    ∀ {behind : List Goal}, step goals token = some behind →
      ∃ behind', step goals' token = some behind' ∧ List.Forall₂ Goal.Covers behind behind' := by
  induction hcovers with
  | nil => intro behind h; simp [step] at h
  | @cons goal goal' goals goals' hgoal hgoals ih =>
    intro behind h
    rcases hgoal with rfl | ⟨rfl, rfl⟩
    · -- the same goal makes the same of the token
      cases hreact : goal.react token with
      | read first =>
        rw [step_of_read hreact] at h ⊢
        cases h
        exact ⟨_, rfl, List.rel_append (covers_refl first) hgoals⟩
      | pass =>
        rw [step_of_pass hreact] at h ⊢
        exact ih h
      | refuse =>
        rw [step_of_refuse hreact] at h
        cases h
    · -- a closing parenthesis is read by both, and nothing else by the goal for it
      simp only [step, Goal.react] at h ⊢
      by_cases hk : token.kind = .rightParen
      · simp only [hk, if_true, List.nil_append] at h ⊢
        cases h
        exact ⟨goals', rfl, hgoals⟩
      · simp [hk] at h

/-- Goals that cover others accept what the others accept. -/
theorem accepts_covers {tokens : List Token} :
    ∀ {goals goals' : List Goal}, List.Forall₂ Goal.Covers goals goals' →
      Accepts goals tokens → Accepts goals' tokens := by
  induction tokens with
  | nil =>
    intro goals goals' hcovers h
    cases h
    cases hcovers
    rfl
  | cons token tokens ih =>
    intro goals goals' hcovers h
    obtain ⟨behind, hstep, hrest⟩ := accepts_cons.mp h
    obtain ⟨behind', hstep', hcovers'⟩ := step_covers hcovers hstep
    exact accepts_cons.mpr ⟨behind', hstep', ih hcovers' hrest⟩

/-! ### One token against the goals of the greedy reading -/

/-- Goals that leave the same behind as others do accept what the others accept. -/
theorem accepts_of_step {goal : Goal} {goals goals' : List Goal} {tokens : List Token}
    (hsame : ∀ token behind, step (goal :: goals) token = some behind →
      step goals' token = some behind)
    (h : Accepts (goal :: goals) tokens) : Accepts goals' tokens := by
  cases tokens with
  | nil => cases h
  | cons token tokens =>
    obtain ⟨behind, hstep, hrest⟩ := accepts_cons.mp h
    exact accepts_cons.mpr ⟨behind, hsame token behind hstep, hrest⟩

/-- A parenthesis behind an expression may be read as a call instead of an expression of its own. -/
theorem accepts_arguments {tokens : List Token} {goals : List Goal}
    (h : Accepts (.expression :: .token .rightParen :: goals) tokens) :
    Accepts (.arguments :: goals) tokens := by
  cases tokens with
  | nil => cases h
  | cons token tokens =>
    obtain ⟨behind, hstep, hrest⟩ := accepts_cons.mp h
    rw [step_expression] at hstep
    obtain ⟨first, hfirst, rfl⟩ := Option.map_eq_some_iff.mp hstep
    obtain ⟨-, -, -, hparen, -⟩ := statement?_of_opening? hfirst
    refine accepts_cons.mpr ⟨first ++ .moreArguments :: goals, ?_, ?_⟩
    · simp [step, Goal.react, hparen, hfirst, Reaction.ofGoals?]
    · -- the first argument may be followed by others, the expression in parentheses may not
      have hclose : Goal.Covers (.token .rightParen) .moreArguments := .inr ⟨rfl, rfl⟩
      exact accepts_covers
        (List.rel_append (covers_refl first) (.cons hclose (covers_refl goals))) hrest

/-- What may stand behind a statement may be read as going on with its expression. -/
theorem accepts_continuations_of_body {goal : Goal} (hbody : goal = .program ∨ goal = .block)
    {tokens : List Token} {goals : List Goal}
    (h : Accepts (.semicolon :: goal :: goals) tokens) :
    Accepts (.continuations :: .semicolon :: goal :: goals) tokens := by
  cases tokens with
  | nil => cases h
  | cons token tokens =>
    obtain ⟨behind, hstep, hrest⟩ := accepts_cons.mp h
    cases hc : continuation? token with
    | none =>
      have hpass : Goal.continuations.react token = .pass := by simp [Goal.react, hc]
      exact accepts_cons.mpr ⟨behind, by rw [step_of_pass hpass, hstep], hrest⟩
    | some first =>
      have hread (goals : List Goal) :
          step (.continuations :: goals) token = some (first ++ goals) :=
        step_of_read (by simp [Goal.react, hc]) goals
      -- of all that continues an expression, only these two start a statement
      have hk : token.kind = .minus ∨ token.kind = .leftParen ∨ statement? token = none := by
        unfold continuation? at hc
        split at hc <;> simp_all [statement?, opening?]
      have hends : token.kind ≠ .semicolon ∧ token.kind ≠ .eof ∧ token.kind ≠ .rightBrace := by
        unfold continuation? at hc
        split at hc <;> simp_all
      have hpass : Goal.semicolon.react token = .pass := if_neg hends.1
      rw [step_of_pass hpass, step_body hbody hends.2.1 hends.2.2] at hstep
      refine accepts_cons.mpr ⟨_, hread _, ?_⟩
      rcases hk with hk | hk | hk
      · -- both readings go on with an operand
        simp only [continuation?, hk, Option.some.injEq] at hc
        simp only [statement?, opening?, hk, Option.map_some, Option.some.injEq] at hstep
        subst hc
        subst hstep
        exact hrest
      · -- a call takes what an expression in parentheses takes
        simp only [continuation?, hk, Option.some.injEq] at hc
        simp only [statement?, opening?, hk, Option.map_some, Option.some.injEq] at hstep
        subst hc
        subst hstep
        exact accepts_arguments hrest
      · rw [hk] at hstep
        cases hstep

/-! ### Derivations of each symbol -/

/-- The goals refuse an `else`. -/
def NoElse (goals : List Goal) : Prop := ∀ token, token.kind = .elseWord → step goals token = none

theorem noElse_token {kind : Kind} (h : kind ≠ .elseWord) (goals : List Goal) :
    NoElse (.token kind :: goals) := by
  intro token hk
  exact step_token_of_ne (by rw [hk]; exact h.symm) goals

theorem noElse_moreArguments (goals : List Goal) : NoElse (.moreArguments :: goals) := by
  intro token hk
  exact step_of_refuse (by simp [Goal.react, hk]) goals

theorem noElse_continuations {goals : List Goal} (h : NoElse goals) :
    NoElse (.continuations :: goals) := by
  intro token hk
  rw [step_of_pass (by simp [Goal.react, continuation?, hk])]
  exact h token hk

theorem noElse_semicolon {goal : Goal} (hbody : goal = .program ∨ goal = .block)
    (goals : List Goal) : NoElse (.semicolon :: goal :: goals) := by
  intro token hk
  rw [step_of_pass (by simp [Goal.react, hk]), step_body hbody (by simp [hk]) (by simp [hk])]
  simp [statement?, opening?, hk]

theorem accepts_token {kind : Kind} {token : Token} {goals : List Goal} {rest : List Token}
    (hk : token.kind = kind) (h : Accepts goals rest) :
    Accepts (.token kind :: goals) (token :: rest) :=
  accepts_cons.mpr ⟨goals, step_token_of_eq hk goals, h⟩

theorem accepts_expression {token : Token} {first goals : List Goal} {rest : List Token}
    (hfirst : opening? token = some first) (h : Accepts (first ++ goals) rest) :
    Accepts (.expression :: goals) (token :: rest) :=
  accepts_cons.mpr ⟨_, by rw [step_expression, hfirst]; rfl, h⟩

theorem accepts_continuations {token : Token} {first goals : List Goal} {rest : List Token}
    (hfirst : continuation? token = some first) (h : Accepts (first ++ goals) rest) :
    Accepts (.continuations :: goals) (token :: rest) :=
  accepts_cons.mpr ⟨_, step_of_read (by simp [Goal.react, hfirst]) goals, h⟩

theorem accepts_body {goal : Goal} (hbody : goal = .program ∨ goal = .block) {token : Token}
    {first goals : List Goal} {rest : List Token} (hfirst : statement? token = some first)
    (h : Accepts (first ++ goal :: goals) rest) : Accepts (goal :: goals) (token :: rest) := by
  have heof : token.kind ≠ .eof := by
    intro hk
    simp [statement?, opening?, hk] at hfirst
  have hbrace : token.kind ≠ .rightBrace := by
    intro hk
    simp [statement?, opening?, hk] at hfirst
  exact accepts_cons.mpr ⟨_, by rw [step_body hbody heof hbrace, hfirst]; rfl, h⟩

/-- A closing parenthesis ends an expression. -/
theorem accepts_close {right : Token} {goals : List Goal} {rest : List Token}
    (hk : right.kind = .rightParen) (h : Accepts goals rest) :
    Accepts (.continuations :: .token .rightParen :: goals) (right :: rest) :=
  accepts_cons.mpr ⟨goals, by simp [step, Goal.react, continuation?, hk], h⟩

/-- What stands behind an argument ends it. -/
theorem accepts_continuations_of_more {goals : List Goal} {tokens : List Token}
    (h : Accepts (.moreArguments :: goals) tokens) :
    Accepts (.continuations :: .moreArguments :: goals) tokens := by
  refine accepts_of_step ?_ h
  intro token behind hstep
  rw [step_of_pass, hstep]
  by_cases hparen : token.kind = .rightParen
  · simp [Goal.react, continuation?, hparen]
  · by_cases hcomma : token.kind = .comma
    · simp [Goal.react, continuation?, hcomma]
    · simp [step, Goal.react, hparen, hcomma] at hstep

theorem accepts_arguments_of_expression {goals : List Goal} {tokens : List Token}
    (h : Accepts (.expression :: .moreArguments :: goals) tokens) :
    Accepts (.arguments :: goals) tokens := by
  refine accepts_of_step ?_ h
  intro token behind hstep
  rw [step_expression] at hstep
  obtain ⟨first, hfirst, hbehind⟩ := Option.map_eq_some_iff.mp hstep
  obtain ⟨-, -, -, hparen, -⟩ := statement?_of_opening? hfirst
  simp [step, Goal.react, hparen, hfirst, Reaction.ofGoals?, ← hbehind]

theorem accepts_semicolon {goal : Goal} (hbody : goal = .program ∨ goal = .block)
    {tokens rest : List Token} (hs : Grammar.Semicolon tokens rest) {goals : List Goal}
    (h : Accepts (goal :: goals) rest) : Accepts (.semicolon :: goal :: goals) tokens := by
  cases hs with
  | present hk => exact accepts_cons.mpr ⟨_, by simp [step, Goal.react, hk], h⟩
  | absent =>
    refine accepts_of_step ?_ h
    intro token behind hstep
    by_cases hk : token.kind = .semicolon
    · -- no statement starts with a semicolon
      rw [step_body hbody (by simp [hk]) (by simp [hk])] at hstep
      simp [statement?, opening?, hk] at hstep
    · have hpass : Goal.semicolon.react token = .pass := if_neg hk
      rw [step_of_pass hpass, hstep]

/-- A goal that a closing parenthesis ends accepts what the closing parenthesis alone does. -/
theorem accepts_of_close {goal : Goal}
    (hread : ∀ token, token.kind = .rightParen → goal.react token = .read [])
    {goals : List Goal} {tokens : List Token} (h : Accepts (.token .rightParen :: goals) tokens) :
    Accepts (goal :: goals) tokens := by
  refine accepts_of_step ?_ h
  intro token behind hstep
  by_cases hk : token.kind = .rightParen
  · rw [step_token_of_eq hk] at hstep
    rw [step_of_read (hread token hk), ← hstep]
    rfl
  · rw [step_token_of_ne hk] at hstep
    cases hstep

theorem accepts_moreNames {tokens rest : List Token} (hn : Grammar.MoreNames tokens rest)
    {goals : List Goal} (h : Accepts (.token .rightParen :: goals) rest) :
    Accepts (.moreParameters :: goals) tokens := by
  induction hn with
  | none => exact accepts_of_close (by intro _ hk; exact if_pos hk) h
  | cons hcomma hname _ ih =>
    exact accepts_cons.mpr ⟨_, by simp [step, Goal.react, hcomma], accepts_token hname (ih h)⟩

theorem accepts_names {tokens rest : List Token} (hn : Grammar.Names tokens rest)
    {goals : List Goal} (h : Accepts (.token .rightParen :: goals) rest) :
    Accepts (.parameters :: goals) tokens := by
  cases hn with
  | none => exact accepts_of_close (by intro _ hk; exact if_pos hk) h
  | cons hname hmore =>
    exact accepts_cons.mpr ⟨_, by simp [step, Goal.react, hname], accepts_moreNames hmore h⟩

/-- Goals that refuse an `else` go on without another branch. -/
theorem accepts_alternative_of_absent {goals : List Goal} (hne : NoElse (.continuations :: goals))
    {tokens : List Token} (h : Accepts (.continuations :: goals) tokens) :
    Accepts (.alternative :: .continuations :: goals) tokens := by
  refine accepts_of_step ?_ h
  intro token behind hstep
  have hk : token.kind ≠ .elseWord := by
    intro hk
    rw [hne token hk] at hstep
    cases hstep
  have hpass : Goal.alternative.react token = .pass := if_neg hk
  rw [step_of_pass hpass, hstep]

/-- A token that starts an expression starts the value of a return. -/
theorem accepts_returned_of_expression {goals : List Goal} {tokens : List Token}
    (h : Accepts (.expression :: goals) tokens) : Accepts (.returned :: goals) tokens := by
  refine accepts_of_step ?_ h
  intro token behind hstep
  rw [step_expression] at hstep
  obtain ⟨first, hfirst, hbehind⟩ := Option.map_eq_some_iff.mp hstep
  obtain ⟨-, heof, hbrace, -, hsemicolon⟩ := statement?_of_opening? hfirst
  have hread : Goal.returned.react token = .read first := by
    simp [Goal.react, heof, hbrace, hsemicolon, hfirst, Reaction.ofGoals?]
  rw [step_of_read hread, hbehind]

/-- What ends a return without a value is left to what stands behind it. -/
theorem accepts_returned_of_ends {goals : List Goal} {tokens : List Token}
    (hend : Grammar.EndsReturn tokens) (h : Accepts goals tokens) :
    Accepts (.returned :: goals) tokens := by
  cases tokens with
  | nil => exact hend.elim
  | cons token tokens =>
    obtain ⟨behind, hstep, hrest⟩ := accepts_cons.mp h
    have hpass : Goal.returned.react token = .pass := if_pos hend
    exact accepts_cons.mpr ⟨behind, by rw [step_of_pass hpass, hstep], hrest⟩

/-- A token that starts an expression starts a statement. -/
theorem accepts_body_of_expression {goal : Goal} (hbody : goal = .program ∨ goal = .block)
    {goals : List Goal} {tokens : List Token}
    (h : Accepts (.expression :: .semicolon :: goal :: goals) tokens) :
    Accepts (goal :: goals) tokens := by
  refine accepts_of_step ?_ h
  intro token behind hstep
  rw [step_expression] at hstep
  obtain ⟨first, hfirst, hbehind⟩ := Option.map_eq_some_iff.mp hstep
  obtain ⟨hstatement, heof, hbrace, -, -⟩ := statement?_of_opening? hfirst
  rw [step_body hbody heof hbrace, hstatement, ← hbehind, Option.map_some, List.append_assoc]
  rfl

theorem continuation?_of_isBinary {token : Token} (h : Grammar.IsBinary token.kind) :
    continuation? token = some [.expression] := by
  rcases h with h | h | h | h | h | h | h | h
  all_goals rw [continuation?, h]

-- The recursion is on derivations, from the last part of a form to its first. What stands behind a
-- part is accepted by then, and the goals for it tell where the part ends.
mutual

theorem accepts_of_expression : ∀ {tokens rest : List Token}, Grammar.Expression tokens rest →
    ∀ {goals : List Goal}, NoElse goals → Accepts (.continuations :: goals) rest →
      Accepts (.expression :: goals) tokens
  | _, _, .mk ho hc => by
    intro hne h
    have hbehind := accepts_of_continuations hc hne h
    exact accepts_of_opening ho hne hbehind

theorem accepts_of_opening : ∀ {tokens rest : List Token}, Grammar.Opening tokens rest →
    ∀ {goals : List Goal}, NoElse goals → Accepts (.continuations :: goals) rest →
      Accepts (.expression :: goals) tokens
  | _, _, .identifier hk => by
    intro _ h
    exact accepts_expression (opening?_identifier hk) h
  | _, _, .number hn => by
    intro _ h
    have hsome := (Grammar.isNumber_iff hn.1).mp hn
    exact accepts_expression ((opening?_number hn.1).trans (if_pos hsome)) h
  | _, _, .boolean hk => by
    intro _ h
    exact accepts_expression (opening?_boolean hk) h
  | _, _, .unary hk he => by
    intro hne h
    have hoperand := accepts_of_expression he hne h
    exact accepts_expression (opening?_unary hk) hoperand
  | _, _, .group hleft he hright => by
    intro _ h
    have hclose := accepts_close hright h
    have hinner := accepts_of_expression he (noElse_token (by decide) _) hclose
    exact accepts_expression (opening?_leftParen hleft) hinner
  | _, _, .conditional hword hleft he hright hb ha => by
    intro hne h
    have halternative := accepts_of_alternative ha hne h
    have hblock := accepts_of_block hb halternative
    have hclose := accepts_close hright hblock
    have hcondition := accepts_of_expression he (noElse_token (by decide) _) hclose
    exact accepts_expression (opening?_ifWord hword) (accepts_token hleft hcondition)
  | _, _, .function hword hleft hn hright hb => by
    intro _ h
    have hblock := accepts_of_block hb h
    have hnames := accepts_names hn (accepts_token hright hblock)
    exact accepts_expression (opening?_funWord hword) (accepts_token hleft hnames)

theorem accepts_of_alternative : ∀ {tokens rest : List Token}, Grammar.Alternative tokens rest →
    ∀ {goals : List Goal}, NoElse goals → Accepts (.continuations :: goals) rest →
      Accepts (.alternative :: .continuations :: goals) tokens
  | _, _, .absent => by
    intro hne h
    exact accepts_alternative_of_absent (noElse_continuations hne) h
  | _, _, .present hword hb => by
    intro _ h
    have hread : Goal.alternative.react _ = .read [.token .leftBrace, .block] := if_pos hword
    exact accepts_cons.mpr ⟨_, step_of_read hread _, accepts_of_block hb h⟩

theorem accepts_of_block : ∀ {tokens rest : List Token}, Grammar.Block tokens rest →
    ∀ {goals : List Goal}, Accepts goals rest →
      Accepts (.token .leftBrace :: .block :: goals) tokens
  | _, _, .mk hleft hs hright => by
    intro h
    have hread : Goal.block.react _ = .read [] := if_pos hright
    have hclose := accepts_cons.mpr ⟨_, step_of_read hread _, h⟩
    have hstatements := accepts_of_statements hs (.inr rfl) hclose
    exact accepts_token hleft hstatements

theorem accepts_of_continuations : ∀ {tokens rest : List Token},
    Grammar.Continuations tokens rest → ∀ {goals : List Goal}, NoElse goals →
      Accepts (.continuations :: goals) rest → Accepts (.continuations :: goals) tokens
  | _, _, .none => by
    intro _ h
    exact h
  | _, _, .cons hc hcs => by
    intro hne h
    have hothers := accepts_of_continuations hcs hne h
    exact accepts_of_continuation hc hne hothers

theorem accepts_of_continuation : ∀ {tokens rest : List Token},
    Grammar.Continuation tokens rest → ∀ {goals : List Goal}, NoElse goals →
      Accepts (.continuations :: goals) rest → Accepts (.continuations :: goals) tokens
  | _, _, .binary hk he => by
    intro hne h
    have hoperand := accepts_of_expression he hne h
    exact accepts_continuations (continuation?_of_isBinary hk) hoperand
  | _, _, .call hleft ha hright => by
    intro _ h
    have harguments := accepts_of_arguments ha (accepts_token hright h)
    exact accepts_continuations (continuation?_leftParen hleft) harguments

theorem accepts_of_arguments : ∀ {tokens rest : List Token}, Grammar.Arguments tokens rest →
    ∀ {goals : List Goal}, Accepts (.token .rightParen :: goals) rest →
      Accepts (.arguments :: goals) tokens
  | _, _, .none => by
    intro h
    exact accepts_of_close (by intro _ hk; exact if_pos hk) h
  | _, _, .cons he hm => by
    intro h
    have hmore := accepts_continuations_of_more (accepts_of_moreArguments hm h)
    have hfirst := accepts_of_expression he (noElse_moreArguments _) hmore
    exact accepts_arguments_of_expression hfirst

theorem accepts_of_moreArguments : ∀ {tokens rest : List Token},
    Grammar.MoreArguments tokens rest → ∀ {goals : List Goal},
      Accepts (.token .rightParen :: goals) rest → Accepts (.moreArguments :: goals) tokens
  | _, _, .none => by
    intro h
    exact accepts_of_close (by intro _ hk; exact if_pos hk) h
  | _, _, .cons hcomma he hm => by
    intro h
    have hmore := accepts_continuations_of_more (accepts_of_moreArguments hm h)
    have hnext := accepts_of_expression he (noElse_moreArguments _) hmore
    exact accepts_cons.mpr ⟨_, by simp [step, Goal.react, hcomma], hnext⟩

theorem accepts_of_statements : ∀ {tokens rest : List Token}, Grammar.Statements tokens rest →
    ∀ {goal : Goal}, goal = .program ∨ goal = .block → ∀ {goals : List Goal},
      Accepts (goal :: goals) rest → Accepts (goal :: goals) tokens
  | _, _, .none => by
    intro _ goals h
    exact h
  | _, _, .cons hs hss => by
    intro hbody goals h
    have hothers := accepts_of_statements hss hbody h
    exact accepts_of_statement hs hbody hothers

theorem accepts_of_statement : ∀ {tokens rest : List Token}, Grammar.Statement tokens rest →
    ∀ {goal : Goal}, goal = .program ∨ goal = .block → ∀ {goals : List Goal},
      Accepts (goal :: goals) rest → Accepts (goal :: goals) tokens
  | _, _, .declaration hword hname hsign he hs => by
    intro hbody goals h
    have hbehind := accepts_continuations_of_body hbody (accepts_semicolon hbody hs h)
    have hvalue := accepts_of_expression he (noElse_semicolon hbody _) hbehind
    exact accepts_body hbody (statement?_declaration hword)
      (accepts_token hname (accepts_token hsign hvalue))
  | _, _, .returnOf hword he hs => by
    intro hbody goals h
    have hbehind := accepts_continuations_of_body hbody (accepts_semicolon hbody hs h)
    have hvalue := accepts_of_expression he (noElse_semicolon hbody _) hbehind
    exact accepts_body hbody (statement?_return hword) (accepts_returned_of_expression hvalue)
  | _, _, .bareReturn hword hend hs => by
    intro hbody goals h
    have hbehind := accepts_semicolon hbody hs h
    exact accepts_body hbody (statement?_return hword) (accepts_returned_of_ends hend hbehind)
  | _, _, .expression he hs => by
    intro hbody goals h
    have hbehind := accepts_continuations_of_body hbody (accepts_semicolon hbody hs h)
    have hvalue := accepts_of_expression he (noElse_semicolon hbody _) hbehind
    exact accepts_body_of_expression hbody hvalue

end

/-- The recognizer accepts exactly the programs of the grammar. -/
theorem program_iff_accepts {tokens : List Token} :
    Grammar.Program tokens ↔ Accepts [.program] tokens := by
  constructor
  · intro h
    obtain ⟨hs, hlast⟩ := h
    have hread : Goal.program.react _ = .read [] := if_pos hlast
    exact accepts_of_statements hs (.inl rfl) (accepts_cons.mpr ⟨[], step_of_read hread [], rfl⟩)
  · intro h
    obtain ⟨_, ⟨last, hs, hlast⟩, rfl⟩ := meetAll_of_accepts h
    exact .mk hs hlast

end Recognizer

end SayLang
