import Mathlib.Algebra.Ring.Int.Defs
import SayLang.Proofs.Onward

/-!
# What diagnostics cost and tokens pay

To compare the diagnostics of a parse with its tokens, each problem is given a toll and each kind of
token an amount that it pays when the parser goes past it; amounts may be negative. A `Tariff` is
such a choice for which no form of the grammar can run into debt: a token that is refused pays for
that itself, and a form that is broken off is paid for by the token that opens it, which is why such
a token must not be spent before its form is through. An opening brace pays for the end of input in
place of its closing brace, or else both together.

> `costs_bind`: a sequence costs what its parts cost, one after the other.
> `Solvent.pay`: going past a token, the amount that it pays is there to be spent.

The end of input pays once, however often it is seen.
-/

namespace SayLang

/-- Is it one of the two tokens around a block? -/
def Kind.isBrace : Kind → Bool
  | leftBrace | rightBrace => true
  | _ => false

/-- A toll for each problem and an amount for each kind of token, such that the tokens of a form pay
for what can be wrong with it. -/
structure Tariff where
  /-- What a diagnostic costs. -/
  toll : Problem → Int
  /-- What a token pays. -/
  pay : Kind → Int
  /-- What is set aside for the case that a form is broken off. -/
  breakage : Int
  /-- A token that starts no expression pays for that. -/
  refused (kind : Kind) : toll (.noExpression kind) ≤ pay kind
  /-- So does a number out of range. -/
  outOfRange (literal : String) : toll (.notAnInteger literal) ≤ pay .number
  /-- Where a token is missing that is no closing brace, a form is broken off. -/
  missing {expected : Kind} (found : Kind) :
    expected ≠ .rightBrace → toll (.unexpected expected found) ≤ breakage
  /-- An opening brace pays for the end of input in place of its closing brace. -/
  unclosed : toll (.unexpected .rightBrace .eof) ≤ pay .leftBrace
  /-- What an opening brace pays is left when the closing brace is there, and made up for else. -/
  closed : 0 ≤ pay .leftBrace + pay .rightBrace
  /-- Nothing is owed for a form that is not broken off. -/
  breakage_nonneg : 0 ≤ breakage
  /-- Every token that is no brace pays for one form. -/
  breakage_le {kind : Kind} : kind.isBrace = false → breakage ≤ pay kind

namespace Tariff

variable (tariff : Tariff) (course : Course)

theorem pay_nonneg {kind : Kind} (h : kind.isBrace = false) : 0 ≤ tariff.pay kind :=
  tariff.breakage_nonneg.trans (tariff.breakage_le h)

/-- What the diagnostics among events cost. -/
def total (events : List Event) : Int :=
  ((events.filterMap Event.diagnostic?).map fun found => tariff.toll found.problem).sum

theorem total_append (first second : List Event) :
    tariff.total (first ++ second) = tariff.total first + tariff.total second := by
  rw [total, List.filterMap_append, List.map_append, List.sum_append]
  rfl

/-- What the tokens before a position pay, those beyond the first end of input left out. -/
def worth : Nat → Int
  | 0 => 0
  | position + 1 =>
    worth position +
      if position ≤ course.last then tariff.pay (course.token position).kind else 0

theorem worth_succ_of_le {position : Nat} (h : position ≤ course.last) :
    tariff.worth course (position + 1) =
      tariff.worth course position + tariff.pay (course.token position).kind := by
  rw [worth, if_pos h]

/-- Going past a token that is no brace loses nothing. -/
theorem worth_le_succ {position : Nat} (h : (course.token position).kind.isBrace = false) :
    tariff.worth course position ≤ tariff.worth course (position + 1) := by
  have hpay := tariff.pay_nonneg h
  rw [worth]
  split <;> omega

/-- Beyond the first end of input nothing is paid any more. -/
theorem worth_le_of_last_le {position : Nat} (h : course.last ≤ position) :
    tariff.worth course position ≤ tariff.worth course (course.last + 1) := by
  induction position, h using Nat.le_induction with
  | base =>
    have heof : (course.token course.last).kind = .eof := by
      by_contra hne
      exact absurd ((course.kind_ne_iff _).mp hne) (Nat.lt_irrefl _)
    exact tariff.worth_le_succ course (by rw [heof]; rfl)
  | succ position hle ih =>
    rcases Nat.eq_or_lt_of_le hle with heq | hlt
    · rw [heq]
    · rwa [worth, if_neg (Nat.not_le.mpr hlt), Int.add_zero]

end Tariff

namespace Parse

variable {κ α β : Type} {tariff : Tariff} {spent : Int}

/-! ## What a run costs -/

/-- The run ends as `post` says of what is spent then, where `spent` was spent before. -/
def Costs (tariff : Tariff) (p : Parse κ α) (cursor : κ) (spent : Int)
    (post : Int → α → κ → Prop) : Prop :=
  post (spent + tariff.total (p.run cursor).events) (p.run cursor).value (p.run cursor).state

/-- What holds at the end may be weakened. -/
theorem Costs.mono {p : Parse κ α} {cursor : κ} {post post' : Int → α → κ → Prop}
    (h : Costs tariff p cursor spent post)
    (hpost : ∀ spent value after, post spent value after → post' spent value after) :
    Costs tariff p cursor spent post' :=
  hpost _ _ _ h

/-- What records no diagnostic costs nothing. -/
theorem costs_of_run_eq {p : Parse κ α} {cursor after : κ} {value : α} {events : List Event}
    {post : Int → α → κ → Prop} (h : p.run cursor = ⟨value, after, events⟩)
    (hsilent : events.filterMap Event.diagnostic? = []) :
    Costs tariff p cursor spent post ↔ post spent value after := by
  rw [Costs, h, Tariff.total, hsilent, List.map_nil, List.sum_nil, Int.add_zero]

@[simp] theorem costs_pure (a : α) (cursor : κ) (post : Int → α → κ → Prop) :
    Costs tariff (pure a : Parse κ α) cursor spent post ↔ post spent a cursor :=
  costs_of_run_eq rfl rfl

/-- A sequence costs what its parts cost, one after the other. -/
@[simp] theorem costs_bind (p : Parse κ α) (f : α → Parse κ β) (cursor : κ)
    (post : Int → β → κ → Prop) :
    Costs tariff (p >>= f) cursor spent post ↔
      Costs tariff p cursor spent fun spent value after =>
        Costs tariff (f value) after spent post := by
  unfold Costs
  rw [Traced.run_bind, Tariff.total_append, ← Int.add_assoc]

@[simp] theorem costs_record_statement (position : Nat) (token : Token) (cursor : κ)
    (post : Int → Unit → κ → Prop) :
    Costs tariff (Traced.record (.statement position token)) cursor spent post ↔
      post spent () cursor :=
  costs_of_run_eq rfl rfl

@[simp] theorem costs_record_expression (position : Nat) (cursor : κ)
    (post : Int → Unit → κ → Prop) :
    Costs tariff (Traced.record (.expression position)) cursor spent post ↔
      post spent () cursor :=
  costs_of_run_eq rfl rfl

variable [Cursor κ]

@[simp] theorem costs_current (cursor : κ) (post : Int → Token → κ → Prop) :
    Costs tariff current cursor spent post ↔ post spent (Cursor.current cursor) cursor :=
  costs_of_run_eq rfl rfl

@[simp] theorem costs_peek (cursor : κ) (post : Int → Token → κ → Prop) :
    Costs tariff peek cursor spent post ↔ post spent (Cursor.peek cursor) cursor :=
  costs_of_run_eq rfl rfl

@[simp] theorem costs_position (cursor : κ) (post : Int → Nat → κ → Prop) :
    Costs tariff position cursor spent post ↔ post spent (Cursor.position cursor) cursor :=
  costs_of_run_eq rfl rfl

@[simp] theorem costs_name (cursor : κ) (post : Int → Name → κ → Prop) :
    Costs tariff name cursor spent post ↔
      post spent (.ofToken (Cursor.current cursor)) cursor :=
  costs_of_run_eq rfl rfl

@[simp] theorem costs_advance (cursor : κ) (post : Int → Unit → κ → Prop) :
    Costs tariff advance cursor spent post ↔ post spent () (Cursor.advance cursor) :=
  costs_of_run_eq rfl rfl

@[simp] theorem costs_optionalSemicolon (cursor : κ) (post : Int → Unit → κ → Prop) :
    Costs tariff optionalSemicolon cursor spent post ↔
      post spent ()
        (if (Cursor.peek cursor).kind = .semicolon then Cursor.advance cursor else cursor) :=
  costs_of_run_eq (run_optionalSemicolon cursor) rfl

/-- What is rejected costs its toll. -/
@[simp] theorem costs_reject (problem : Token → Problem) (cursor : κ)
    (post : Int → Expression → κ → Prop) :
    Costs tariff (reject problem) cursor spent post ↔
      post (spent + tariff.toll (problem (Cursor.current cursor)))
        (.error (Cursor.current cursor) (problem (Cursor.current cursor)).message) cursor := by
  rw [Costs, run_reject]
  show post (spent + (_ + 0)) _ _ ↔ _
  rw [Int.add_zero]

/-- So does what is not what was asked for. -/
@[simp] theorem costs_expecting (kind : Kind) (broken : Expression → α) (next : Parse κ α)
    (cursor : κ) (post : Int → α → κ → Prop) :
    Costs tariff (expecting kind broken next) cursor spent post ↔
      ((Cursor.peek cursor).kind = kind →
        Costs tariff next (Cursor.advance cursor) spent post) ∧
      ((Cursor.peek cursor).kind ≠ kind →
        post (spent + tariff.toll (.unexpected kind (Cursor.peek cursor).kind))
          (broken (.error (Cursor.peek cursor)
            (Problem.unexpected kind (Cursor.peek cursor).kind).message)) cursor) := by
  by_cases h : (Cursor.peek cursor).kind = kind
  · simp only [Costs, run_expecting_of_eq broken next h, h, ne_eq, not_true_eq_false,
      false_implies, and_true, true_implies]
  · simp only [Costs, run_expecting_of_ne broken next h, h, ne_eq, not_false_eq_true,
      false_implies, true_and, true_implies]
    show post (spent + (_ + 0)) _ _ ↔ _
    rw [Int.add_zero]

/-! ## What is there to be spent -/

variable {course : Course} {start : Nat} {reserve : Int} {cursor : κ}

/-- The cursor is on the course and not before the start, and the tokens up to `offset` beyond it
pay for what is spent and for a reserve. -/
structure Funded (tariff : Tariff) (course : Course) (offset start : Nat) (reserve spent : Int)
    (cursor : κ) : Prop where
  /-- It sees the tokens of the course. -/
  on : Cursor.On course cursor
  /-- It has not gone back. -/
  start_le : start ≤ Cursor.position cursor
  /-- What is spent is paid for, and the reserve is left. -/
  le : spent + reserve ≤ tariff.worth course (Cursor.position cursor + offset)

/-- The tokens before the current one pay. -/
abbrev Solvent (tariff : Tariff) (course : Course) : Nat → Int → Int → κ → Prop :=
  Funded tariff course 0

/-- The current token pays as well. -/
abbrev Paid (tariff : Tariff) (course : Course) : Nat → Int → Int → κ → Prop :=
  Funded tariff course 1

/-- Less may be kept in reserve, and an earlier start be named. -/
theorem Funded.mono {offset start' : Nat} {reserve' spent' : Int}
    (h : Funded tariff course offset start reserve spent cursor) (hstart : start' ≤ start)
    (hle : spent' + reserve' ≤ spent + reserve) :
    Funded tariff course offset start' reserve' spent' cursor :=
  ⟨h.on, hstart.trans h.start_le, hle.trans h.le⟩

theorem Funded.earlier {offset : Nat}
    (h : Funded tariff course offset (start + 1) reserve spent cursor) :
    Funded tariff course offset start reserve spent cursor :=
  h.mono (Nat.le_succ start) (Int.le_refl _)

/-- Going past the current token, what it pays is there to be spent. -/
theorem Solvent.pay (h : Solvent tariff course start reserve spent cursor)
    (hle : Cursor.position cursor ≤ course.last) :
    Paid tariff course start (reserve + tariff.pay (Cursor.current cursor).kind) spent cursor := by
  have hworth := tariff.worth_succ_of_le course hle
  have hspent := h.le
  rw [← h.on.current_eq] at hworth
  rw [Nat.add_zero] at hspent
  exact ⟨h.on, h.start_le, by omega⟩

/-- Going past a token that is no brace loses nothing. -/
theorem Solvent.pass (h : Solvent tariff course start reserve spent cursor)
    (hbrace : (Cursor.current cursor).kind.isBrace = false) :
    Paid tariff course start reserve spent cursor := by
  rw [h.on.current_eq] at hbrace
  exact ⟨h.on, h.start_le, h.le.trans (tariff.worth_le_succ course hbrace)⟩

/-- A token that opens a form pays for the case that this is broken off. -/
theorem Solvent.opens (h : Solvent tariff course start reserve spent cursor)
    (hle : Cursor.position cursor ≤ course.last)
    (hbrace : (Cursor.current cursor).kind.isBrace = false) :
    Paid tariff course start (reserve + tariff.breakage) spent cursor := by
  have hbreakage := tariff.breakage_le hbrace
  exact (h.pay hle).mono (Nat.le_refl _) (by omega)

/-- A form that is not broken off leaves what was set aside for that. -/
theorem Paid.through (h : Paid tariff course start (reserve + tariff.breakage) spent cursor) :
    Paid tariff course start reserve spent cursor := by
  have hbreakage := tariff.breakage_nonneg
  exact h.mono (Nat.le_refl _) (by omega)

variable [LawfulCursor κ]

theorem Paid.advance (h : Paid tariff course start reserve spent cursor) :
    Solvent tariff course (start + 1) reserve spent (Cursor.advance cursor) := by
  refine ⟨h.on.advance, ?_, ?_⟩ <;> rw [LawfulCursor.position_advance]
  · exact Nat.succ_le_succ h.start_le
  · exact h.le

theorem Paid.optionalSemicolon (h : Paid tariff course start reserve spent cursor) :
    Paid tariff course start reserve spent
      (if (Cursor.peek cursor).kind = .semicolon then Cursor.advance cursor else cursor) := by
  split
  next hk =>
    rw [← LawfulCursor.current_advance] at hk
    exact ((Paid.advance h).pass (by rw [hk]; rfl)).earlier
  next => exact h

end Parse

end SayLang
