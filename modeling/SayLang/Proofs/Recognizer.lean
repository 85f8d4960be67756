import Mathlib.Tactic.FinCases
import SayLang.Integer
import SayLang.Precedence

/-!
# A recognizer that reads one token at a time

The language can be recognized without precedence and without looking ahead. What is still to come
is a list of `Goal`s, and each token either fits the foremost of them, which then gives way to the
goals that the token leaves behind, or it is refused. `Recognizer.step` is that single step,
`Recognizer.run` the steps for a list of tokens.

Four goals need no token of their own. Continuations, a semicolon, the value of a return and an
other branch are passed over when the token does not fit them.

> `step_congr`: lines do not matter.
> `accepts_finish`: from every list of goals that a run reaches, some tokens lead to the end.

The second is why the recognizer refuses a token only where no text goes on.
-/

namespace SayLang

/-- What is still to be read. -/
inductive Goal where
  /-- Statements up to the end of input. -/
  | program
  /-- Statements up to the closing brace of a block. -/
  | block
  /-- An expression. -/
  | expression
  /-- Continuations of an expression. -/
  | continuations
  /-- A semicolon, or none. -/
  | semicolon
  /-- The value of a return, or none. -/
  | returned
  /-- The other branch of a conditional, or none. -/
  | alternative
  /-- A token of a certain kind. -/
  | token (kind : Kind)
  /-- Parameters of a function up to the closing parenthesis. -/
  | parameters
  /-- Further parameters up to the closing parenthesis. -/
  | moreParameters
  /-- Arguments of a call up to the closing parenthesis. -/
  | arguments
  /-- Further arguments up to the closing parenthesis. -/
  | moreArguments
deriving DecidableEq

/-- What the recognizer looks at in a token. -/
def Token.spelling (token : Token) : Kind × String := (token.kind, token.literal)

namespace Recognizer

/-- The goals behind a token that starts an expression, if it starts one. -/
def opening? (token : Token) : Option (List Goal) :=
  match token.kind with
  | .identifier | .trueWord | .falseWord => some [.continuations]
  | .number => if (Integer.ofDigits? token.literal).isSome then some [.continuations] else none
  | .bang | .minus => some [.expression]
  | .leftParen => some [.expression, .token .rightParen, .continuations]
  | .ifWord =>
    some [.token .leftParen, .expression, .token .rightParen, .token .leftBrace, .block,
      .alternative, .continuations]
  | .funWord =>
    some [.token .leftParen, .parameters, .token .leftBrace, .block, .continuations]
  | _ => none

/-- The goals behind a token that continues an expression, if it continues one. -/
def continuation? (token : Token) : Option (List Goal) :=
  match token.kind with
  | .equalEqual | .bangEqual | .less | .greater | .plus | .minus | .asterisk | .slash =>
    some [.expression]
  | .leftParen => some [.arguments, .continuations]
  | _ => none

/-- The goals behind a token that starts a statement, if it starts one. -/
def statement? (token : Token) : Option (List Goal) :=
  match token.kind with
  | .sayWord | .invarWord => some [.token .identifier, .token .assign, .expression, .semicolon]
  | .returnWord => some [.returned, .semicolon]
  | _ => (opening? token).map (· ++ [.semicolon])

/-! ### What each token leaves behind -/

section behind

variable {token : Token}

theorem opening?_identifier (h : token.kind = .identifier) :
    opening? token = some [.continuations] := by
  rw [opening?, h]

theorem opening?_number (h : token.kind = .number) :
    opening? token =
      if (Integer.ofDigits? token.literal).isSome then some [.continuations] else none := by
  rw [opening?, h]

theorem opening?_boolean (h : token.kind = .trueWord ∨ token.kind = .falseWord) :
    opening? token = some [.continuations] := by
  rcases h with h | h <;> rw [opening?, h]

theorem opening?_unary (h : token.kind = .bang ∨ token.kind = .minus) :
    opening? token = some [.expression] := by
  rcases h with h | h <;> rw [opening?, h]

theorem opening?_leftParen (h : token.kind = .leftParen) :
    opening? token = some [.expression, .token .rightParen, .continuations] := by
  rw [opening?, h]

theorem opening?_ifWord (h : token.kind = .ifWord) :
    opening? token =
      some [.token .leftParen, .expression, .token .rightParen, .token .leftBrace, .block,
        .alternative, .continuations] := by
  rw [opening?, h]

theorem opening?_funWord (h : token.kind = .funWord) :
    opening? token =
      some [.token .leftParen, .parameters, .token .leftBrace, .block, .continuations] := by
  rw [opening?, h]

/-- A token that starts an expression starts a statement, and ends nothing. -/
theorem statement?_of_opening? {behind : List Goal} (h : opening? token = some behind) :
    statement? token = some (behind ++ [.semicolon]) ∧ token.kind ≠ .eof ∧
      token.kind ≠ .rightBrace ∧ token.kind ≠ .rightParen ∧ token.kind ≠ .semicolon := by
  have h' := h
  unfold opening? at h
  split at h
  all_goals first | (next hk => simp [statement?, hk, h']) | cases h

theorem continuation?_eq_none_iff :
    continuation? token = none ↔ token.kind.precedence = .lowest := by
  unfold continuation?
  split <;> simp_all [Kind.precedence]

theorem continuation?_binary (h : token.kind.precedence ≠ .lowest) (hne : token.kind ≠ .leftParen) :
    continuation? token = some [.expression] := by
  unfold continuation?
  split <;> simp_all [Kind.precedence]

theorem continuation?_leftParen (h : token.kind = .leftParen) :
    continuation? token = some [.arguments, .continuations] := by
  rw [continuation?, h]

theorem statement?_declaration (h : token.kind = .sayWord ∨ token.kind = .invarWord) :
    statement? token = some [.token .identifier, .token .assign, .expression, .semicolon] := by
  rcases h with h | h <;> rw [statement?, h]

theorem statement?_return (h : token.kind = .returnWord) :
    statement? token = some [.returned, .semicolon] := by
  rw [statement?, h]

end behind

end Recognizer

/-- What a goal makes of a token. -/
inductive Reaction where
  /-- The token is read, and these goals take the place of the goal. -/
  | read (behind : List Goal)
  /-- The goal is passed over, and the token is left to the next one. -/
  | pass
  /-- The token is refused. -/
  | refuse
deriving DecidableEq

/-- A token is read if there are goals behind it, and refused otherwise. -/
def Reaction.ofGoals? : Option (List Goal) → Reaction
  | some behind => .read behind
  | none => .refuse

namespace Reaction

theorem ofGoals?_ne_pass (goals? : Option (List Goal)) : ofGoals? goals? ≠ pass := by
  cases goals? <;> simp [ofGoals?]

theorem of_ofGoals? {goals? : Option (List Goal)} {behind : List Goal}
    (h : ofGoals? goals? = read behind) : goals? = some behind := by
  cases goals? with
  | none => cases h
  | some goals => cases h; rfl

theorem of_ofGoals?_map {goals? : Option (List Goal)} {last behind : List Goal}
    (h : ofGoals? (goals?.map (· ++ last)) = read behind) :
    ∃ first, goals? = some first ∧ behind = first ++ last := by
  obtain ⟨first, hfirst, rfl⟩ := Option.map_eq_some_iff.mp (of_ofGoals? h)
  exact ⟨first, hfirst, rfl⟩

end Reaction

open Recognizer in
/-- What a goal makes of a token. -/
def Goal.react (token : Token) : Goal → Reaction
  | program =>
    if token.kind = .eof then .read []
    else .ofGoals? ((statement? token).map (· ++ [program]))
  | block =>
    if token.kind = .rightBrace then .read []
    else .ofGoals? ((statement? token).map (· ++ [block]))
  | expression => .ofGoals? (opening? token)
  | continuations =>
    match continuation? token with
    | some behind => .read behind
    | none => .pass
  | semicolon => if token.kind = .semicolon then .read [] else .pass
  | returned =>
    if token.kind = .semicolon ∨ token.kind = .rightBrace ∨ token.kind = .eof then .pass
    else .ofGoals? (opening? token)
  | alternative => if token.kind = .elseWord then .read [.token .leftBrace, block] else .pass
  | .token kind => if token.kind = kind then .read [] else .refuse
  | parameters =>
    if token.kind = .rightParen then .read []
    else if token.kind = .identifier then .read [moreParameters]
    else .refuse
  | moreParameters =>
    if token.kind = .rightParen then .read []
    else if token.kind = .comma then .read [.token .identifier, moreParameters]
    else .refuse
  | arguments =>
    if token.kind = .rightParen then .read []
    else .ofGoals? ((opening? token).map (· ++ [moreArguments]))
  | moreArguments =>
    if token.kind = .rightParen then .read []
    else if token.kind = .comma then .read [expression, moreArguments]
    else .refuse

/-! ### What a goal reads -/

/-- A closing token is read, or what else there is applies. -/
theorem Reaction.closes_or {closes : Prop} [Decidable closes] {other : Reaction}
    {behind : List Goal} (h : (if closes then read [] else other) = read behind) :
    (closes ∧ behind = []) ∨ other = read behind := by
  by_cases hcloses : closes
  · rw [if_pos hcloses] at h
    cases h
    exact .inl ⟨hcloses, rfl⟩
  · rw [if_neg hcloses] at h
    exact .inr h

/-- A token of the one kind that is asked for is read. -/
theorem Reaction.of_ite {fits : Prop} [Decidable fits] {goals behind : List Goal} {other : Reaction}
    (h : (if fits then read goals else other) = read behind) (hother : other ≠ read behind) :
    fits ∧ behind = goals := by
  by_cases hfits : fits
  · rw [if_pos hfits] at h
    cases h
    exact ⟨hfits, rfl⟩
  · rw [if_neg hfits] at h
    exact absurd h hother

open Recognizer in
/-- The tokens that a goal reads, each with the goals that take its place. -/
def Goal.Reads (token : Token) (behind : List Goal) : Goal → Prop
  | program =>
    (token.kind = .eof ∧ behind = []) ∨
      ∃ first, statement? token = some first ∧ behind = first ++ [program]
  | block =>
    (token.kind = .rightBrace ∧ behind = []) ∨
      ∃ first, statement? token = some first ∧ behind = first ++ [block]
  | expression | returned => opening? token = some behind
  | continuations => continuation? token = some behind
  | semicolon => token.kind = .semicolon ∧ behind = []
  | alternative => token.kind = .elseWord ∧ behind = [.token .leftBrace, block]
  | .token kind => token.kind = kind ∧ behind = []
  | parameters =>
    (token.kind = .rightParen ∧ behind = []) ∨
      (token.kind = .identifier ∧ behind = [moreParameters])
  | moreParameters =>
    (token.kind = .rightParen ∧ behind = []) ∨
      (token.kind = .comma ∧ behind = [.token .identifier, moreParameters])
  | arguments =>
    (token.kind = .rightParen ∧ behind = []) ∨
      ∃ first, opening? token = some first ∧ behind = first ++ [moreArguments]
  | moreArguments =>
    (token.kind = .rightParen ∧ behind = []) ∨
      (token.kind = .comma ∧ behind = [expression, moreArguments])

/-- What goals read is all that later proofs need of how they react. -/
theorem Goal.reads_of_react {goal : Goal} {token : Token} {behind : List Goal}
    (h : goal.react token = .read behind) : goal.Reads token behind := by
  cases goal with
  | program | block | arguments =>
    rcases Reaction.closes_or h with hcloses | hother
    · exact .inl hcloses
    · exact .inr (Reaction.of_ofGoals?_map hother)
  | expression => exact Reaction.of_ofGoals? h
  | continuations =>
    simp only [react] at h
    split at h
    next first hfirst =>
      cases h
      exact hfirst
    next => cases h
  | returned =>
    simp only [react] at h
    split at h
    · cases h
    · exact Reaction.of_ofGoals? h
  | semicolon | alternative | token _ => exact Reaction.of_ite h nofun
  | parameters | moreParameters | moreArguments =>
    rcases Reaction.closes_or h with hcloses | hother
    · exact .inl hcloses
    · exact .inr (Reaction.of_ite hother nofun)

namespace Recognizer

/-- The goals behind a token, unless it is refused. -/
def step : List Goal → Token → Option (List Goal)
  | [], _ => none
  | goal :: goals, token =>
    match goal.react token with
    | .read behind => some (behind ++ goals)
    | .pass => step goals token
    | .refuse => none

/-- The first goal decides, and the next one when it passes. -/
theorem step_cons (goal : Goal) (goals : List Goal) (token : Token) :
    step (goal :: goals) token =
      match goal.react token with
      | .read behind => some (behind ++ goals)
      | .pass => step goals token
      | .refuse => none :=
  rfl

theorem step_of_read {goal : Goal} {token : Token} {behind : List Goal}
    (h : goal.react token = .read behind) (goals : List Goal) :
    step (goal :: goals) token = some (behind ++ goals) := by
  rw [step_cons, h]

theorem step_of_pass {goal : Goal} {token : Token} (h : goal.react token = .pass)
    (goals : List Goal) : step (goal :: goals) token = step goals token := by
  rw [step_cons, h]

theorem step_of_refuse {goal : Goal} {token : Token} (h : goal.react token = .refuse)
    (goals : List Goal) : step (goal :: goals) token = none := by
  rw [step_cons, h]

theorem step_token_of_eq {kind : Kind} {token : Token} (h : token.kind = kind)
    (goals : List Goal) : step (.token kind :: goals) token = some goals := by
  have hreact : (Goal.token kind).react token = .read [] := if_pos h
  rw [step_of_read hreact, List.nil_append]

theorem step_token_of_ne {kind : Kind} {token : Token} (h : token.kind ≠ kind)
    (goals : List Goal) : step (.token kind :: goals) token = none := by
  have hreact : (Goal.token kind).react token = .refuse := if_neg h
  exact step_of_refuse hreact goals

theorem step_expression (token : Token) (goals : List Goal) :
    step (.expression :: goals) token = (opening? token).map (· ++ goals) := by
  simp only [step, Goal.react]
  cases opening? token <;> rfl

/-- Statements of a program go on up to the end of input. -/
theorem step_program {token : Token} (heof : token.kind ≠ .eof) (goals : List Goal) :
    step (.program :: goals) token = (statement? token).map (· ++ .program :: goals) := by
  simp only [step, Goal.react, heof, if_false]
  cases statement? token <;> simp [Reaction.ofGoals?]

/-- Statements of a block go on up to its closing brace. -/
theorem step_block {token : Token} (hbrace : token.kind ≠ .rightBrace) (goals : List Goal) :
    step (.block :: goals) token = (statement? token).map (· ++ .block :: goals) := by
  simp only [step, Goal.react, hbrace, if_false]
  cases statement? token <;> simp [Reaction.ofGoals?]

/-- Statements go on up to a token that ends them. -/
theorem step_body {goal : Goal} (hbody : goal = .program ∨ goal = .block) {token : Token}
    (heof : token.kind ≠ .eof) (hbrace : token.kind ≠ .rightBrace) (goals : List Goal) :
    step (goal :: goals) token = (statement? token).map (· ++ goal :: goals) := by
  rcases hbody with rfl | rfl
  · exact step_program heof goals
  · exact step_block hbrace goals

/-- The goals behind a list of tokens, unless one of them is refused. -/
def run : List Goal → List Token → Option (List Goal)
  | goals, [] => some goals
  | goals, token :: rest => (step goals token).bind (run · rest)

/-- The tokens are all that the goals ask for. -/
def Accepts (goals : List Goal) (tokens : List Token) : Prop := run goals tokens = some []

instance (goals : List Goal) (tokens : List Token) : Decidable (Accepts goals tokens) := by
  unfold Accepts; infer_instance

/-- The first token leaves goals behind that the others are accepted for. -/
theorem accepts_cons {goals : List Goal} {token : Token} {rest : List Token} :
    Accepts goals (token :: rest) ↔
      ∃ behind, step goals token = some behind ∧ Accepts behind rest :=
  Option.bind_eq_some_iff

theorem run_append (goals : List Goal) (first second : List Token) :
    run goals (first ++ second) = (run goals first).bind (run · second) := by
  induction first generalizing goals with
  | nil => rfl
  | cons token first ih =>
    simp only [List.cons_append, run]
    cases step goals token with
    | none => rfl
    | some behind => exact ih behind

/-! ## Only kinds and literals count -/

section congr

variable {token token' : Token} (hkind : token.kind = token'.kind)
  (hliteral : token.literal = token'.literal)

include hkind hliteral

theorem opening?_congr : opening? token = opening? token' := by
  simp only [opening?, hkind, hliteral]

theorem statement?_congr : statement? token = statement? token' := by
  simp only [statement?, hkind, opening?_congr hkind hliteral]

/-- Tokens of one kind and one literal are treated alike, on whatever lines they stand. -/
theorem step_congr (goals : List Goal) : step goals token = step goals token' := by
  induction goals with
  | nil => rfl
  | cons goal goals ih =>
    have hcontinuation : continuation? token = continuation? token' := by
      simp only [continuation?, hkind]
    have hreact : goal.react token = goal.react token' := by
      cases goal <;>
        simp only [Goal.react, hkind, hcontinuation, opening?_congr hkind hliteral,
          statement?_congr hkind hliteral]
    simp only [step, hreact, ih]

end congr

/-- Lists of tokens of the same kinds and literals are treated alike. -/
theorem run_congr {tokens tokens' : List Token}
    (h : tokens.map Token.spelling = tokens'.map Token.spelling) :
    ∀ goals, run goals tokens = run goals tokens' := by
  induction tokens generalizing tokens' with
  | nil =>
    intro goals
    rw [List.map_nil, eq_comm, List.map_eq_nil_iff] at h
    rw [h]
  | cons token tokens ih =>
    intro goals
    cases tokens' with
    | nil => simp at h
    | cons token' tokens' =>
      simp only [List.map_cons, List.cons.injEq, Token.spelling, Prod.mk.injEq] at h
      simp only [run, step_congr h.1.1 h.1.2]
      cases step goals token' with
      | none => rfl
      | some behind => exact ih h.2 behind

/-! ## Every list of goals that a run reaches can be met -/

end Recognizer

/-- A token of the given kind, for the kinds that goals ask for by name. -/
def Kind.sample : Kind → Token
  | .identifier => ⟨.identifier, "x", 1⟩
  | .eof => ⟨.eof, "", 1⟩
  | kind => ⟨kind, kind.text, 1⟩

/-- The shortest tokens that meet a goal. -/
def Goal.shortest : Goal → List Token
  | program => [Kind.sample .eof]
  | block => [Kind.sample .rightBrace]
  | expression | returned => [Kind.sample .identifier]
  | continuations | semicolon | alternative => []
  | token kind => [kind.sample]
  | parameters | moreParameters | arguments | moreArguments => [Kind.sample .rightParen]

/-- The kinds of the shortest tokens that meet goals, the end of input apart. -/
def finishing : List Kind :=
  [.identifier, .assign, .leftParen, .rightParen, .leftBrace, .rightBrace]

namespace Recognizer

/-- The shortest tokens that meet goals one after the other. -/
def finish (goals : List Goal) : List Token := goals.flatMap Goal.shortest

@[simp] theorem finish_cons (goal : Goal) (goals : List Goal) :
    finish (goal :: goals) = goal.shortest ++ finish goals := rfl

/-- The tokens do not start with an opening parenthesis, which would be taken for a call. -/
def NoCall : List Token → Prop
  | [] => True
  | token :: _ => token.kind ≠ .leftParen

@[simp] theorem noCall_cons (token : Token) (rest : List Token) :
    NoCall (token :: rest) ↔ token.kind ≠ .leftParen := Iff.rfl

/-- Goals as they come about in a run. The end of input is asked for last and nowhere before, and
no opening parenthesis is asked for where an expression could go on with a call: the shortest tokens
would be read as something else there. -/
def Sound : List Goal → Prop
  | [] => False
  | .program :: goals => goals = []
  | .expression :: goals | .continuations :: goals | .returned :: goals =>
    NoCall (finish goals) ∧ Sound goals
  | .token kind :: goals => kind ∈ finishing ∧ Sound goals
  | .block :: goals | .semicolon :: goals | .alternative :: goals | .parameters :: goals
  | .moreParameters :: goals | .arguments :: goals | .moreArguments :: goals => Sound goals

/-- Behind a goal that is not the last one, sound goals go on. -/
theorem Sound.tail {goal : Goal} {goals : List Goal} (hs : Sound (goal :: goals))
    (hne : goal ≠ .program) : Sound goals := by
  cases goal <;> first | exact absurd rfl hne | exact hs | exact hs.2

theorem opening_sound {token : Token} {behind goals : List Goal} (h : opening? token = some behind)
    (hcall : NoCall (finish goals)) (hgoals : Sound goals) : Sound (behind ++ goals) := by
  unfold opening? at h
  split at h <;> (try split at h) <;> simp only [Option.some.injEq, reduceCtorEq] at h <;>
    subst h <;>
    simp [Sound, finishing, hcall, hgoals, Goal.shortest, Kind.sample]

theorem statement_sound {token : Token} {behind goals : List Goal}
    (h : statement? token = some behind) (hcall : NoCall (finish goals)) (hgoals : Sound goals) :
    Sound (behind ++ goals) := by
  unfold statement? at h
  split at h
  · cases h
    simp [Sound, finishing, hcall, hgoals, Goal.shortest]
  · cases h
    simp [Sound, finishing, hcall, hgoals, Goal.shortest]
  · cases h
    simp [Sound, hcall, hgoals, Goal.shortest]
  · obtain ⟨first, hfirst, rfl⟩ := Option.map_eq_some_iff.mp h
    rw [List.append_assoc]
    exact opening_sound hfirst hcall hgoals

/-- The goals that take the place of one goal are as sound as that. -/
theorem reads_sound {goal : Goal} {token : Token} {behind goals : List Goal}
    (h : goal.Reads token behind) (hne : token.kind ≠ .eof) (hs : Sound (goal :: goals)) :
    Sound (behind ++ goals) := by
  cases goal with
  | program =>
    rcases h with ⟨heof, -⟩ | ⟨first, hfirst, rfl⟩
    · exact absurd heof hne
    · rw [List.append_assoc]
      -- the end of input is what meets the statements behind the first one
      exact statement_sound hfirst (by simp [Goal.shortest, Kind.sample]) hs
  | block =>
    rcases h with ⟨-, rfl⟩ | ⟨first, hfirst, rfl⟩
    · exact hs
    · rw [List.append_assoc]
      exact statement_sound hfirst (by simp [Goal.shortest, Kind.sample]) hs
  | expression | returned => exact opening_sound h hs.1 hs.2
  | continuations =>
    have hcontinuation : continuation? token = some behind := h
    unfold continuation? at hcontinuation
    split at hcontinuation <;> cases hcontinuation <;> simp [Sound, hs.1, hs.2]
  | semicolon =>
    obtain ⟨-, rfl⟩ := h
    exact hs
  | alternative =>
    obtain ⟨-, rfl⟩ := h
    exact ⟨by simp [finishing], hs⟩
  | token kind =>
    obtain ⟨-, rfl⟩ := h
    exact hs.2
  | parameters =>
    rcases h with ⟨-, rfl⟩ | ⟨-, rfl⟩
    · exact hs
    · exact hs
  | moreParameters =>
    rcases h with ⟨-, rfl⟩ | ⟨-, rfl⟩
    · exact hs
    · exact ⟨by simp [finishing], hs⟩
  | arguments =>
    rcases h with ⟨-, rfl⟩ | ⟨first, hfirst, rfl⟩
    · exact hs
    · rw [List.append_assoc]
      exact opening_sound hfirst (by simp [Goal.shortest, Kind.sample]) hs
  | moreArguments =>
    rcases h with ⟨-, rfl⟩ | ⟨-, rfl⟩
    · exact hs
    · exact ⟨by simp [Goal.shortest, Kind.sample], hs⟩

/-- A token that is not refused and not the end of input leaves sound goals behind. -/
theorem step_sound {token : Token} (hne : token.kind ≠ .eof) {goals : List Goal} :
    ∀ {behind : List Goal}, step goals token = some behind → Sound goals → Sound behind := by
  induction goals with
  | nil => intro behind h; simp [step] at h
  | cons goal goals ih =>
    intro behind h hs
    cases hreact : goal.react token with
    | read first =>
      rw [step_of_read hreact] at h
      cases h
      exact reads_sound (Goal.reads_of_react hreact) hne hs
    | pass =>
      rw [step_of_pass hreact] at h
      refine ih h (hs.tail ?_)
      -- statements up to the end of input are never passed over
      intro hgoal
      subst hgoal
      rw [Goal.react, if_neg hne] at hreact
      exact absurd hreact (Reaction.ofGoals?_ne_pass _)
    | refuse =>
      rw [step_of_refuse hreact] at h
      cases h

/-- Tokens before the end of input leave sound goals behind. -/
theorem run_sound {tokens : List Token} (hne : ∀ token ∈ tokens, token.kind ≠ .eof) :
    ∀ {goals behind : List Goal}, run goals tokens = some behind → Sound goals → Sound behind := by
  induction tokens with
  | nil =>
    intro goals behind h hs
    cases h
    exact hs
  | cons token tokens ih =>
    intro goals behind h hs
    obtain ⟨next, hnext, hrun⟩ := Option.bind_eq_some_iff.mp h
    exact ih (fun t ht => hne t (List.mem_cons_of_mem _ ht)) hrun
      (step_sound (hne token (List.mem_cons_self ..)) hnext hs)

/-- Only the last goal reads the end of input. -/
theorem react_eof {goal : Goal} {goals behind : List Goal} {token : Token}
    (heof : token.kind = .eof) (hs : Sound (goal :: goals)) (hne : goal ≠ .program) :
    goal.react token ≠ .read behind := by
  cases goal with
  | program => exact absurd rfl hne
  | token kind =>
    have hkind : kind ≠ .eof := by
      intro hkind
      rw [hkind] at hs
      exact absurd hs.1 (by decide)
    simp [Goal.react, heof, hkind.symm]
  | _ =>
    simp [Goal.react, heof, statement?, opening?, continuation?, Reaction.ofGoals?]

/-- Behind the end of input nothing is left. -/
theorem step_eof {token : Token} (heof : token.kind = .eof) {goals : List Goal} :
    ∀ {behind : List Goal}, step goals token = some behind → Sound goals → behind = [] := by
  induction goals with
  | nil => intro behind h; simp [step] at h
  | cons goal goals ih =>
    intro behind h hs
    by_cases hgoal : goal = .program
    · subst hgoal
      cases (hs : goals = [])
      simp only [step, Goal.react, heof, if_true, List.append_nil, Option.some.injEq] at h
      exact h.symm
    · cases hreact : goal.react token with
      | read first => exact absurd hreact (react_eof heof hs hgoal)
      | pass =>
        rw [step_of_pass hreact] at h
        exact ih h (hs.tail hgoal)
      | refuse =>
        rw [step_of_refuse hreact] at h
        cases h

/-- A goal that is not the last one is met by tokens of known kinds. -/
theorem Sound.mem_shortest {goal : Goal} {goals : List Goal} (hs : Sound (goal :: goals))
    (hne : goal ≠ .program) : ∀ token ∈ goal.shortest, ∃ kind ∈ finishing, token = kind.sample := by
  intro token htoken
  cases goal with
  | program => exact absurd rfl hne
  | continuations | semicolon | alternative => cases htoken
  | token kind => exact ⟨kind, hs.1, List.mem_singleton.mp htoken⟩
  | block => exact ⟨.rightBrace, by simp [finishing], List.mem_singleton.mp htoken⟩
  | expression | returned =>
    exact ⟨.identifier, by simp [finishing], List.mem_singleton.mp htoken⟩
  | parameters | moreParameters | arguments | moreArguments =>
    exact ⟨.rightParen, by simp [finishing], List.mem_singleton.mp htoken⟩

/-- What meets sound goals ends with the end of input, and has only tokens of known kinds before
it. -/
theorem finish_eq_append {goals : List Goal} (hs : Sound goals) :
    ∃ body, finish goals = body ++ [Kind.sample .eof] ∧
      ∀ token ∈ body, ∃ kind ∈ finishing, token = kind.sample := by
  induction goals with
  | nil => exact hs.elim
  | cons goal goals ih =>
    by_cases hgoal : goal = .program
    · subst hgoal
      cases (hs : goals = [])
      exact ⟨[], rfl, by simp⟩
    · obtain ⟨body, hbody, hmem⟩ := ih (hs.tail hgoal)
      refine ⟨goal.shortest ++ body, by rw [finish_cons, hbody, List.append_assoc], ?_⟩
      intro token htoken
      rcases List.mem_append.mp htoken with hshort | hrest
      · exact hs.mem_shortest hgoal token hshort
      · exact hmem token hrest

/-- What meets sound goals starts with a token, and that is no semicolon, no `else`, and continues
an expression only by a call. -/
theorem finish_eq_cons {goals : List Goal} (hs : Sound goals) :
    ∃ token rest, finish goals = token :: rest ∧ token.kind ≠ .semicolon ∧
      token.kind ≠ .elseWord ∧ (token.kind ≠ .leftParen → continuation? token = none) := by
  obtain ⟨body, hbody, hmem⟩ := finish_eq_append hs
  cases body with
  | nil => exact ⟨_, _, hbody, by simp [Kind.sample], by simp [Kind.sample], fun _ => rfl⟩
  | cons token body =>
    refine ⟨token, _, hbody, ?_⟩
    obtain ⟨kind, hkind, rfl⟩ := hmem token (List.mem_cons_self ..)
    fin_cases hkind <;> simp [Kind.sample, continuation?]

/-- The shortest tokens that meet sound goals are accepted. -/
theorem accepts_finish {goals : List Goal} (hs : Sound goals) : Accepts goals (finish goals) := by
  induction goals with
  | nil => exact hs.elim
  | cons goal goals ih =>
    by_cases hgoal : goal = .program
    · subst hgoal
      cases (hs : goals = [])
      rfl
    · -- a goal that is met by nothing is passed over, and that is up to the token behind it
      have hrest := ih (hs.tail hgoal)
      obtain ⟨token, rest, hfinish, hsemicolon, helse, hcontinuation⟩ :=
        finish_eq_cons (hs.tail hgoal)
      rw [finish_cons, hfinish]
      rw [hfinish] at hrest
      cases goal with
      | program => exact absurd rfl hgoal
      | continuations =>
        -- an opening parenthesis would be read as a call here, which soundness rules out
        have hcall : token.kind ≠ .leftParen := by simpa [hfinish] using hs.1
        simpa [Accepts, run, step, Goal.react, Goal.shortest, hcontinuation hcall] using hrest
      | semicolon => simpa [Accepts, run, step, Goal.react, Goal.shortest, hsemicolon] using hrest
      | alternative => simpa [Accepts, run, step, Goal.react, Goal.shortest, helse] using hrest
      | expression | returned =>
        have hcall : token.kind ≠ .leftParen := by simpa [hfinish] using hs.1
        simpa [Accepts, run, step, Goal.react, Reaction.ofGoals?, Goal.shortest,
          Kind.sample, opening?, hcontinuation hcall] using hrest
      | token kind =>
        have hkind : kind.sample.kind = kind := by cases kind <;> rfl
        simpa [Accepts, run, step, Goal.react, Goal.shortest, hkind] using hrest
      | block | parameters | moreParameters | arguments | moreArguments =>
        simpa [Accepts, run, step, Goal.react, Goal.shortest, Kind.sample] using hrest

end Recognizer

end SayLang
