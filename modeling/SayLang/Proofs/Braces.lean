import Mathlib.Algebra.BigOperators.Ring.List
import SayLang.Proofs.Covering

/-!
# Braces of a text and what is found wrong with them

A brace is the brace of a block, or it is refused where an expression should start. An operand that
is missing in front of a closing brace has that brace refused, and a brace that is refused closes
nothing: the block goes on behind it, up to the next closing brace or to the end of input.

> `braces_accounted`: each opening brace is closed, refused or found unclosed at the end of input,
> and each closing brace closes a block or is refused.
> `unclosed_iff_of_balanced`: what this says of a text in which the braces match.

The tokens pay for the diagnostics here to the last: with all signs turned around they do so too.
-/

namespace SayLang

/-! ## A tariff for braces -/

/-- What a problem does to the number of braces that are open. -/
def Problem.braces : Problem → Int
  | noExpression .leftBrace | unexpected .rightBrace .eof => 1
  | noExpression .rightBrace => -1
  | _ => 0

/-- What a token does to it. -/
def Kind.braces : Kind → Int
  | leftBrace => 1
  | rightBrace => -1
  | _ => 0

/-- Braces that are refused or not closed pay for just that, however often it counts. -/
def braceTariff (factor : Int) : Tariff where
  toll problem := factor * problem.braces
  pay kind := factor * kind.braces
  breakage := 0
  refused kind := by cases kind <;> exact Int.le_refl _
  outOfRange _ := Int.le_refl _
  missing {expected} found h := by
    cases expected <;> first | exact absurd rfl h | exact Int.le_of_eq (Int.mul_zero _)
  unclosed := Int.le_refl _
  closed := by
    show 0 ≤ factor * 1 + factor * -1
    omega
  breakage_nonneg := Int.le_refl 0
  breakage_le {kind} h := by cases kind <;> cases h <;> exact Int.le_of_eq (Int.mul_zero _).symm

theorem sum_braces_problem (problems : List Problem) :
    (problems.map Problem.braces).sum =
      problems.count (.noExpression .leftBrace) + problems.count (.unexpected .rightBrace .eof) -
        problems.count (.noExpression .rightBrace) := by
  induction problems with
  | nil => rfl
  | cons problem problems ih =>
    rw [List.map_cons, List.sum_cons, ih]
    unfold Problem.braces
    split
    next => simp; omega
    next => simp; omega
    next => simp; omega
    next hopening hunclosed hclosing =>
      rw [List.count_cons_of_ne hopening, List.count_cons_of_ne hunclosed,
        List.count_cons_of_ne hclosing]
      omega

theorem sum_braces_kind (kinds : List Kind) :
    (kinds.map Kind.braces).sum = kinds.count .leftBrace - kinds.count .rightBrace := by
  induction kinds with
  | nil => rfl
  | cons kind kinds ih =>
    rw [List.map_cons, List.sum_cons, ih]
    cases kind <;> simp [Kind.braces] <;> omega

/-! ## What becomes of each brace -/

/-- Each opening brace is closed, refused or found unclosed at the end of input, and each closing
brace closes a block or is refused: with those refused left out, the opening braces are as many as
the closing braces and the blocks found unclosed. -/
theorem braces_accounted (source : String) :
    let kinds := (tokenize source).map Token.kind
    let problems := (parse source).diagnostics.map Diagnostic.problem
    kinds.count .leftBrace + problems.count (.noExpression .rightBrace) =
      kinds.count .rightBrace + problems.count (.noExpression .leftBrace) +
        problems.count (.unexpected .rightBrace .eof) := by
  intro kinds problems
  have hle (factor : Int) :
      factor * (problems.map Problem.braces).sum ≤ factor * (kinds.map Kind.braces).sum := by
    rw [← List.sum_map_mul_left, ← List.sum_map_mul_left, List.map_map, List.map_map]
    exact (braceTariff factor).parse_covered source
  have hpays := hle 1
  have hpaysBack := hle (-1)
  rw [sum_braces_problem, sum_braces_kind] at hpays hpaysBack
  omega

/-- The braces among tokens match: no part at the front has more closing than opening braces, and
the whole has as many of both. -/
def BracesBalanced (tokens : List Token) : Prop :=
  (∀ front ∈ tokens.inits,
    (front.map Token.kind).count .rightBrace ≤ (front.map Token.kind).count .leftBrace) ∧
  (tokens.map Token.kind).count .leftBrace = (tokens.map Token.kind).count .rightBrace

instance (tokens : List Token) : Decidable (BracesBalanced tokens) :=
  inferInstanceAs (Decidable (_ ∧ _))

/-- Where the braces match, a block is found unclosed if and only if closing braces were refused,
and more of them than opening braces. -/
theorem unclosed_iff_of_balanced {source : String} (h : BracesBalanced (tokenize source)) :
    let problems := (parse source).diagnostics.map Diagnostic.problem
    (∃ line, (⟨line, .unexpected .rightBrace .eof⟩ : Diagnostic) ∈ (parse source).diagnostics) ↔
      problems.count (.noExpression .leftBrace) < problems.count (.noExpression .rightBrace) := by
  intro problems
  have haccounted : _ + problems.count (.noExpression .rightBrace) =
      _ + problems.count (.noExpression .leftBrace) +
        problems.count (.unexpected .rightBrace .eof) := braces_accounted source
  have hunclosed : (∃ line, (⟨line, .unexpected .rightBrace .eof⟩ : Diagnostic) ∈
      (parse source).diagnostics) ↔ 0 < problems.count (.unexpected .rightBrace .eof) := by
    rw [List.count_pos_iff, List.mem_map]
    constructor
    · intro hfound
      obtain ⟨line, hmem⟩ := hfound
      exact ⟨_, hmem, rfl⟩
    · intro hfound
      obtain ⟨found, hmem, hproblem⟩ := hfound
      rw [← hproblem]
      exact ⟨found.line, hmem⟩
  have hequal := h.2
  rw [hunclosed]
  omega

/-- The braces match where an operand is missing in front of a closing brace. -/
theorem balanced_missing_operand : BracesBalanced (tokenize "if (true) \x7b 1 + \x7d") := by
  have htokens : tokenize "if (true) \x7b 1 + \x7d" =
      [⟨.ifWord, "if", 1⟩, ⟨.leftParen, "(", 1⟩, ⟨.trueWord, "true", 1⟩, ⟨.rightParen, ")", 1⟩,
        ⟨.leftBrace, "\x7b", 1⟩, ⟨.number, "1", 1⟩, ⟨.plus, "+", 1⟩, ⟨.rightBrace, "\x7d", 1⟩,
        ⟨.eof, "", 1⟩] := by
    rw [tokenize]
    iterate 8 rw [Lexer.tokens, if_neg (by decide)]
    rw [Lexer.tokens, if_pos (by decide)]
    rfl
  rw [htokens]
  decide

/-- The brace is refused in the place of the operand, and then it is missing. -/
theorem unclosed_of_missing_operand :
    let source := "if (true) \x7b 1 + \x7d"
    BracesBalanced (tokenize source) ∧
      ((parse source).diagnostics.map Diagnostic.problem).count (.noExpression .leftBrace) <
        ((parse source).diagnostics.map Diagnostic.problem).count (.noExpression .rightBrace) ∧
      ∃ line, (⟨line, .unexpected .rightBrace .eof⟩ : Diagnostic) ∈
        (parse source).diagnostics := by
  intro source
  have hrefused : ((parse source).diagnostics.map Diagnostic.problem).count
      (.noExpression .leftBrace) <
        ((parse source).diagnostics.map Diagnostic.problem).count (.noExpression .rightBrace) := by
    decide
  exact ⟨balanced_missing_operand, hrefused,
    (unclosed_iff_of_balanced balanced_missing_operand).mpr hrefused⟩

/-- So matching braces alone do not keep a block from being found unclosed. -/
theorem balanced_block_left_open :
    ¬ ∀ source, BracesBalanced (tokenize source) → ∀ found ∈ (parse source).diagnostics,
      found.problem ≠ .unexpected .rightBrace .eof := by
  intro h
  have hfound : ⟨1, .unexpected .rightBrace .eof⟩ ∈
      (parse "if (true) \x7b 1 + \x7d").diagnostics := by decide
  exact h _ balanced_missing_operand _ hfound rfl

end SayLang
