import Mathlib.Data.List.Chain
import Mathlib.Data.List.TakeWhile
import Mathlib.Data.String.Basic
import SayLang.Proofs.Layout
import SayLang.Proofs.Recognizer

/-!
# Writing tokens with any blanks between them

Tokens may be written with blanks between them or with none. They are cut again as they are, unless
two of them touch that would be cut otherwise: two words, two numbers, or an equals sign behind `=`
or `!` (`Token.Clashes`). Then what is cut is always something else.

> `Spells.endsBefore_iff`: a token ends before another one that touches it, unless they clash.
> `tokenize_written_iff`: the whole text, by induction on the tokens.
-/

namespace SayLang

/-- Without a blank between them the tokens would be cut otherwise. -/
def Token.Clashes (first second : Token) : Prop :=
  first.kind.isWord = true ∧ second.kind.isWord = true ∨
    first.kind = .number ∧ second.kind = .number ∨
      (first.kind = .assign ∨ first.kind = .bang) ∧ second.literal.toList.head? = some '='

instance (first second : Token) : Decidable (first.Clashes second) :=
  inferInstanceAs (Decidable (_ ∨ _ ∨ _))

/-- Every token ends before blanks. -/
theorem Kind.endsBefore_of_blank (kind : Kind) {last : List Char} (h : Blank last) :
    kind.EndsBefore last := by
  cases last with
  | nil => exact kind.endsBefore_nil
  | cons c last => exact kind.endsBefore_of_isBlank (h c List.mem_cons_self) last

/-- A token ends before another one that touches it, unless they clash. -/
theorem Spells.endsBefore_iff (first : Token) {second : Token}
    (h : Spells second.kind second.literal) (more : List Char) :
    first.kind.EndsBefore (second.literal.toList ++ more) ↔ ¬ first.Clashes second := by
  obtain ⟨c, chars, hchars⟩ := h.exists_cons
  obtain ⟨hword, hdigit⟩ := h.head hchars
  rw [Token.Clashes, hchars, List.cons_append, Kind.endsBefore_cons]
  cases hkind : first.kind <;> simp [Kind.takes, Kind.isWord, Kind.isKeyword, hword, hdigit]

/-- A token ends before the others, unless it clashes with one that touches it. -/
theorem endsBefore_written_iff (first : Token) {pieces : List Piece} {last : List Char}
    (hpieces : ∀ piece ∈ pieces, Blank piece.gap ∧ Spells piece.token.kind piece.token.literal)
    (hlast : Blank last) :
    first.kind.EndsBefore (written pieces ++ last) ↔
      ∀ second ∈ pieces.head?, second.gap = [] → ¬ first.Clashes second.token := by
  cases pieces with
  | nil => exact iff_of_true (first.kind.endsBefore_of_blank hlast) nofun
  | cons second pieces =>
    obtain ⟨hgap, hspells⟩ := hpieces second List.mem_cons_self
    rw [written_cons, List.append_assoc, List.append_assoc]
    simp only [List.head?_cons, Option.mem_some_iff, forall_eq']
    cases hnil : second.gap with
    | nil => simpa using hspells.endsBefore_iff first (written pieces ++ last)
    | cons c gap =>
      rw [hnil] at hgap
      exact iff_of_true (first.kind.endsBefore_of_isBlank (hgap c List.mem_cons_self) _) nofun

/-- The kind and the text of what is cut tell what is left. -/
theorem Lexeme.cut_eq_iff (kind : Kind) (c : Char) (chars more : List Char) :
    cut c (chars ++ more) = ⟨kind, c :: chars, more⟩ ↔
      (cut c (chars ++ more)).kind = kind ∧ (cut c (chars ++ more)).text = c :: chars := by
  constructor
  · intro hcut
    rw [hcut]
    exact ⟨rfl, rfl⟩
  · intro ⟨hkind, htext⟩
    have happend := cut_append c (chars ++ more)
    rw [htext, ← List.cons_append, List.append_cancel_left_eq] at happend
    rw [← hkind, ← htext]
    exact congrArg (Lexeme.mk _ _) happend

namespace Lexer

/-- A token written out is what comes next if it ends where it should, and then the text behind it
is left. -/
theorem next_eq_iff {lexer : Lexer} {piece : Piece} {more : List Char}
    (hgap : Blank piece.gap) (hspells : Spells piece.token.kind piece.token.literal)
    (hrest : lexer.rest = piece.gap ++ (piece.token.literal.toList ++ more)) :
    lexer.next.1.kind ≠ .eof ∧
      (lexer.next.1.spelling = piece.token.spelling ↔ piece.token.kind.EndsBefore more) ∧
      (piece.token.kind.EndsBefore more → lexer.next.2.rest = more) := by
  obtain ⟨c, chars, hchars⟩ := hspells.exists_cons
  have hblank : isBlank c = false := hspells.isBlank_eq c (by rw [hchars]; exact List.mem_cons_self)
  have hdrop : lexer.rest.dropWhile isBlank = c :: (chars ++ more) := by
    rw [hrest, List.dropWhile_append_of_pos hgap, hchars, List.cons_append,
      List.dropWhile_cons_of_neg (by rw [hblank]; exact Bool.false_ne_true)]
  have hcut := hspells.cut_eq_iff hchars more
  have hspelling : lexer.next.1.spelling = piece.token.spelling ↔
      Lexeme.cut c (chars ++ more) = ⟨piece.token.kind, c :: chars, more⟩ := by
    rw [next_of_cons hdrop, Lexeme.cut_eq_iff, ← hchars, ← String.ofList_eq]
    exact Prod.ext_iff
  refine ⟨?_, hspelling.trans hcut, fun hends => ?_⟩
  · rw [next_of_cons hdrop]
    exact (Lexeme.cut_spells hblank _).kind_ne_eof
  · rw [next_of_cons hdrop, hcut.mpr hends]

theorem spellings_tokens_eq_iff {pieces : List Piece} {last : List Char} (hlast : Blank last)
    (hpieces : ∀ piece ∈ pieces, Blank piece.gap ∧ Spells piece.token.kind piece.token.literal) :
    ∀ {lexer : Lexer}, lexer.rest = written pieces ++ last →
      (lexer.tokens.map Token.spelling =
          pieces.map (fun piece => piece.token.spelling) ++ [(.eof, "")] ↔
        pieces.IsChain fun first second =>
          second.gap = [] → ¬ first.token.Clashes second.token) := by
  induction pieces with
  | nil =>
    intro lexer hrest
    have hnil : lexer.rest.dropWhile isBlank = [] := by
      rw [hrest]
      exact List.dropWhile_eq_nil_iff.mpr hlast
    refine iff_of_true ?_ .nil
    rw [(laidOut_nil hnil).tokens_eq]
    rfl
  | cons piece pieces ih =>
    intro lexer hrest
    obtain ⟨⟨hgap, hspells⟩, hothers⟩ := List.forall_mem_cons.mp hpieces
    rw [written_cons, List.append_assoc, List.append_assoc] at hrest
    obtain ⟨hne, hnext, hbehind⟩ := next_eq_iff hgap hspells hrest
    rw [List.isChain_cons, ← endsBefore_written_iff piece.token hothers hlast, tokens, if_neg hne,
      List.map_cons, List.map_cons, List.cons_append, List.cons.injEq, hnext]
    exact and_congr_right fun hends => ih hothers (hbehind hends)

end Lexer

/-- Tokens written with any blanks before, between and behind them are cut again as they are, and
the end of input comes after them, if and only if no two of them touch that clash. -/
theorem tokenize_written_iff {pieces : List Piece} {last : List Char}
    (hpieces : ∀ piece ∈ pieces, Blank piece.gap ∧ Spells piece.token.kind piece.token.literal)
    (hlast : Blank last) :
    (tokenize (String.ofList (written pieces ++ last))).map Token.spelling =
        pieces.map (fun piece => piece.token.spelling) ++ [(.eof, "")] ↔
      pieces.IsChain fun first second => second.gap = [] → ¬ first.token.Clashes second.token := by
  refine Lexer.spellings_tokens_eq_iff hlast hpieces ?_
  rw [Lexer.ofSource, String.toList_ofList]

/-- Four tokens of which three touch, and three of which two clash. -/
theorem tokenize_written_of_touching :
    let touching : List Piece := [⟨[' '], ⟨.ifWord, "if", 1⟩⟩, ⟨['\t'], ⟨.identifier, "x", 1⟩⟩,
      ⟨[], ⟨.number, "1", 1⟩⟩, ⟨[], ⟨.illegal, "é", 1⟩⟩]
    let clashing : List Piece := [⟨[], ⟨.identifier, "x", 1⟩⟩, ⟨[], ⟨.assign, "=", 1⟩⟩,
      ⟨[], ⟨.equalEqual, "==", 1⟩⟩]
    (∀ piece ∈ touching ++ clashing,
        Blank piece.gap ∧ Spells piece.token.kind piece.token.literal) ∧
      Blank ['\r', '\n'] ∧
      (tokenize " if\tx1é\r\n").map Token.spelling =
        [(.ifWord, "if"), (.identifier, "x"), (.number, "1"), (.illegal, "é"), (.eof, "")] ∧
      (tokenize "x===\r\n").map Token.spelling ≠
        [(.identifier, "x"), (.assign, "="), (.equalEqual, "=="), (.eof, "")] := by
  intro touching clashing
  have hname : Spells .identifier "x" := by
    refine .name (by decide) (List.all_eq_true.mp (by decide)) fun kind hk => ?_
    cases kind <;> cases hk <;> decide
  have hnumber : Spells .number "1" := .number (by decide) (List.all_eq_true.mp (by decide))
  have hpieces : ∀ piece ∈ touching ++ clashing,
      Blank piece.gap ∧ Spells piece.token.kind piece.token.literal := by
    simp only [touching, clashing, List.cons_append, List.nil_append, List.forall_mem_cons]
    refine ⟨⟨by decide, .keyword rfl⟩, ⟨by decide, hname⟩, ⟨by decide, hnumber⟩,
      ⟨by decide, .illegal (by decide) (by decide) (by decide) (by decide)⟩, ⟨by decide, hname⟩,
      ⟨by decide, .sign rfl⟩, ⟨by decide, .sign rfl⟩, List.forall_mem_nil _⟩
  obtain ⟨htouching, hclashing⟩ := List.forall_mem_append.mp hpieces
  have hlast : Blank ['\r', '\n'] := by decide
  refine ⟨hpieces, hlast, (tokenize_written_iff htouching hlast).mpr (by decide), fun h => ?_⟩
  exact absurd ((tokenize_written_iff hclashing hlast).mp h) (by decide)

end SayLang
