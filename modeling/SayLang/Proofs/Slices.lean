import Mathlib.Data.String.Basic
import SayLang.Proofs.Layout
import SayLang.Scanner

/-!
# Slices of a text

A scanner goes over a text by byte positions and takes the text of each token as a slice. Where it
stands, the text is what comes before the token being cut, the characters of that token passed so
far, and what is ahead (`Scanner.At`). Both positions lie between two of these, so each slice that
is taken lies in the text and starts and stops between characters.

> `Scanner.At.next`: a scanner and a lexer with the same text ahead give the same token.
> `tokenize_lossless`: a text is its tokens and blanks between them, by bytes as by characters.
-/

namespace SayLang

/-- The position behind the characters, in a text that starts with them. -/
def endOf (chars : List Char) : String.Pos.Raw := ⟨String.utf8Len chars⟩

theorem endOf_concat (chars : List Char) (c : Char) : endOf (chars ++ [c]) = endOf chars + c := by
  rw [endOf, String.utf8Len_append]
  simp [endOf, String.Pos.Raw.ext_iff]

theorem endOf_isValid (chars more : List Char) :
    (endOf chars).IsValid (String.ofList (chars ++ more)) := by
  refine String.Pos.Raw.isValid_iff_exists_append.mpr
    ⟨String.ofList chars, String.ofList more, String.ofList_append, ?_⟩
  rw [endOf, ← String.utf8ByteSize_ofList]
  rfl

namespace Scanner

/-! ## Where a scanner stands -/

/-- The scanner has passed the text before the token and some of its characters, the rest is ahead,
and it has come to the line. -/
structure At (scanner : Scanner) (before text rest : List Char) (line : Nat) : Prop where
  source_eq : scanner.source = String.ofList (before ++ text ++ rest)
  ahead_eq : scanner.ahead = indexed (endOf (before ++ text)) rest
  start_eq : scanner.start = endOf before
  cursor_eq : scanner.cursor = endOf (before ++ text)
  line_eq : scanner.line = line

theorem ofSource_at (source : String) : (ofSource source).At [] [] source.toList 1 :=
  ⟨String.ofList_toList.symm, rfl, rfl, rfl, rfl⟩

namespace At

variable {scanner : Scanner} {before text rest : List Char} {line : Nat} {c : Char}

theorem peek_eq (h : scanner.At before text rest line) : scanner.peek = rest.head? := by
  rw [peek, h.ahead_eq]
  cases rest <;> rfl

/-- A character passed belongs to the token. -/
theorem advance (h : scanner.At before text (c :: rest) line) :
    scanner.advance.At before (text ++ [c]) rest line := by
  have hadvance : scanner.advance =
      ⟨scanner.source, indexed (endOf (before ++ text) + c) rest, scanner.start,
        endOf (before ++ text) + c, scanner.line⟩ := by
    rw [Scanner.advance, h.ahead_eq]
    rfl
  rw [hadvance, ← endOf_concat, List.append_assoc before text]
  refine ⟨?_, rfl, h.start_eq, rfl, h.line_eq⟩
  rw [h.source_eq]
  simp only [List.append_assoc, List.singleton_append]

theorem advanceWhile (p : Char → Bool) (h : scanner.At before text rest line) :
    (scanner.advanceWhile p).At before (text ++ rest.takeWhile p) (rest.dropWhile p) line := by
  induction rest generalizing scanner text with
  | nil =>
    rw [Scanner.advanceWhile, h.peek_eq, if_neg (by simp), List.takeWhile_nil, List.append_nil]
    exact h
  | cons c rest ih =>
    rw [Scanner.advanceWhile, h.peek_eq, List.head?_cons, Option.any_some]
    by_cases hp : p c = true
    · rw [if_pos hp, List.takeWhile_cons_of_pos hp, List.dropWhile_cons_of_pos hp,
        List.append_cons]
      exact ih h.advance
    · rw [if_neg hp, List.takeWhile_cons_of_neg hp, List.dropWhile_cons_of_neg hp, List.append_nil]
      exact h

theorem countLine (h : scanner.At before text (c :: rest) line) :
    scanner.countLine.At before text (c :: rest) (line + [c].count '\n') := by
  refine ⟨h.source_eq, h.ahead_eq, h.start_eq, h.cursor_eq, ?_⟩
  rw [Scanner.countLine, h.peek_eq, h.line_eq]
  by_cases hc : c = '\n' <;> simp [hc]

theorem skipBlanks (h : scanner.At before text rest line) :
    scanner.skipBlanks.At before (text ++ rest.takeWhile isBlank) (rest.dropWhile isBlank)
      (line + (rest.takeWhile isBlank).count '\n') := by
  induction rest generalizing scanner text line with
  | nil =>
    rw [Scanner.skipBlanks, h.peek_eq, if_neg (by simp), List.takeWhile_nil, List.append_nil]
    exact h
  | cons c rest ih =>
    rw [Scanner.skipBlanks, h.peek_eq, List.head?_cons, Option.any_some]
    by_cases hc : isBlank c = true
    · have hcount : (c :: rest.takeWhile isBlank).count '\n' =
          [c].count '\n' + (rest.takeWhile isBlank).count '\n' := by
        rw [← List.singleton_append, List.count_append]
      rw [if_pos hc, List.takeWhile_cons_of_pos hc, List.dropWhile_cons_of_pos hc, hcount,
        List.append_cons, ← Nat.add_assoc]
      exact ih h.countLine.advance
    · rw [if_neg hc, List.takeWhile_cons_of_neg hc, List.dropWhile_cons_of_neg hc, List.append_nil]
      exact h

/-- What comes next is the first character of a token. -/
theorem mark (h : scanner.At before text (c :: rest) line) :
    (scanner.mark c).At (before ++ text) [c] rest line := by
  have hadvance := h.advance
  refine ⟨?_, ?_, ?_, ?_, hadvance.line_eq⟩
  · rw [List.append_assoc before text]
    exact hadvance.source_eq
  · rw [List.append_assoc before text]
    exact hadvance.ahead_eq
  · show scanner.advance.cursor.unoffsetBy ⟨c.utf8Size⟩ = _
    rw [hadvance.cursor_eq, ← List.append_assoc, endOf_concat]
    simp [String.Pos.Raw.ext_iff]
  · rw [List.append_assoc before text]
    exact hadvance.cursor_eq

/-- The characters of the token passed so far are a slice. -/
theorem slice?_eq (h : scanner.At before text rest line) :
    scanner.slice? = some (String.ofList text) := by
  have hstart : scanner.start.IsValid scanner.source := by
    rw [h.start_eq, h.source_eq, List.append_assoc]
    exact endOf_isValid _ _
  have hstop : scanner.cursor.IsValid scanner.source := by
    rw [h.cursor_eq, h.source_eq]
    exact endOf_isValid _ _
  have hle : scanner.start ≤ scanner.cursor := by
    rw [h.start_eq, h.cursor_eq, String.Pos.Raw.le_iff, endOf, endOf, String.utf8Len_append]
    exact Nat.le_add_right _ _
  rw [slice?, if_pos ⟨hstart, hstop, hle⟩, h.start_eq, h.cursor_eq, h.source_eq, endOf, endOf,
    String.utf8Len_append, String.extract_of_valid]

/-- A token goes as far as the lexer cuts it. -/
theorem classify (h : scanner.At before [c] rest line) :
    ∃ scanner', scanner.classify c = some ((Lexeme.cut c rest).kind, scanner') ∧
      scanner'.At before (Lexeme.cut c rest).text (Lexeme.cut c rest).rest line := by
  unfold Scanner.classify
  split
  case h_13 | h_14 =>
    rw [h.peek_eq]
    rcases rest with _ | ⟨d, rest⟩
    · exact ⟨scanner, rfl, h⟩
    by_cases hd : d = '='
    · subst hd
      exact ⟨scanner.advance, rfl, h.advance⟩
    · exact ⟨scanner, by simp [Lexeme.cut, hd], by simpa [Lexeme.cut, hd] using h⟩
  case h_15 =>
    by_cases hdigit : c.isDigit = true
    · rw [if_pos hdigit, Lexeme.cut_of_isDigit rest hdigit]
      exact ⟨_, rfl, h.advanceWhile Char.isDigit⟩
    rw [if_neg hdigit]
    by_cases hword : isWordChar c = true
    · have hrun := h.advanceWhile isWordChar
      rw [if_pos hword, Lexeme.cut_of_isWordChar rest hword]
      refine ⟨_, ?_, hrun⟩
      rw [word?, hrun.slice?_eq]
      rfl
    · have hsign : isSignChar c = false := by
        rw [← Bool.not_eq_true]
        intro hsign
        simp_all [isSignChar]
      rw [Bool.not_eq_true] at hdigit hword
      rw [if_neg (by rw [hword]; exact Bool.false_ne_true),
        Lexeme.cut_of_illegal rest hword hdigit hsign]
      exact ⟨scanner, rfl, h⟩
  -- the other signs are one character
  all_goals exact ⟨scanner, rfl, h⟩

/-- A scanner and a lexer with the same text ahead give the same token, and go on from there. -/
theorem next {lexer : Lexer} (h : scanner.At before text lexer.rest lexer.line) :
    ∃ scanner', scanner.next = some (lexer.next.1, scanner') ∧
      ∃ before' text', scanner'.At before' text' lexer.next.2.rest lexer.next.2.line := by
  have hskip := h.skipBlanks
  cases hrest : lexer.rest.dropWhile isBlank with
  | nil =>
    rw [hrest] at hskip
    rw [Lexer.next_of_nil hrest]
    refine ⟨scanner.skipBlanks, ?_, _, _, hskip⟩
    rw [Scanner.next, hskip.peek_eq, ← hskip.line_eq]
    rfl
  | cons c rest =>
    rw [hrest] at hskip
    rw [Lexer.next_of_cons hrest]
    obtain ⟨scanner', hclassify, hat⟩ := hskip.mark.classify
    refine ⟨scanner', ?_, _, _, hat⟩
    have hpeek := hskip.peek_eq
    rw [List.head?_cons] at hpeek
    simp only [Scanner.next, hpeek, hclassify, hat.slice?_eq, hat.line_eq, Option.bind_eq_bind,
      Option.bind_some]
    rfl

/-- So they give the same tokens, however many. -/
theorem take {lexer : Lexer} (h : scanner.At before text lexer.rest lexer.line) (count : Nat) :
    scanner.take count = some (lexer.take count) := by
  induction count generalizing scanner lexer before text with
  | zero => rfl
  | succ count ih =>
    obtain ⟨scanner', hnext, before', text', hat⟩ := h.next
    rw [Scanner.take, hnext]
    simp [ih hat, Lexer.take]

end At

end Scanner

/-! ## Whole texts -/

/-- Asked for as many tokens as there are, a lexer gives them all. -/
theorem Lexer.take_length_tokens (lexer : Lexer) :
    lexer.take lexer.tokens.length = lexer.tokens := by
  induction lexer using Lexer.tokens.induct with
  | case1 lexer heof =>
    rw [tokens, if_pos heof]
    rfl
  | case2 lexer hne ih =>
    rw [tokens, if_neg hne, List.length_cons, take, ih]

/-- A text is its tokens with blanks before, between and behind them, and nothing is lost of it:
each token has characters and none of them is a blank, it stands on the line that the line feeds
before it say, and the end of input on the last line. Byte positions give the same tokens, as many
as are asked for, so every slice taken lies in the text and starts and stops between characters. -/
theorem tokenize_lossless (source : String) :
    (∃ (pieces : List Piece) (last : List Char),
      tokenize source = pieces.map Piece.token ++ [⟨.eof, "", 1 + source.toList.count '\n'⟩] ∧
        source = String.ofList (written pieces ++ last) ∧
        (∀ piece ∈ pieces, Blank piece.gap ∧ piece.token.kind ≠ .eof ∧ piece.token.literal ≠ "" ∧
          ∀ c ∈ piece.token.literal.toList, isBlank c = false) ∧
        Blank last ∧
        ∀ before piece after, pieces = before ++ piece :: after →
          piece.token.line = 1 + (written before ++ piece.gap).count '\n') ∧
      (∀ count, (Scanner.ofSource source).take count = some ((Lexer.ofSource source).take count)) ∧
        (Scanner.ofSource source).take (tokenize source).length = some (tokenize source) := by
  have htake (count : Nat) :
      (Scanner.ofSource source).take count = some ((Lexer.ofSource source).take count) :=
    Scanner.At.take (Scanner.ofSource_at source) count
  refine ⟨?_, htake, ?_⟩
  · obtain ⟨pieces, last, h⟩ := (Lexer.ofSource source).exists_laidOut
    refine ⟨pieces, last, h.tokens_eq, ?_, fun piece hpiece => ?_, h.last, h.line_eq⟩
    · rw [← h.rest_eq]
      exact String.ofList_toList.symm
    · have hspells := h.spells piece hpiece
      exact ⟨h.gap piece hpiece, hspells.kind_ne_eof, hspells.ne_empty, hspells.isBlank_eq⟩
  · rw [htake]
    exact congrArg some (Lexer.take_length_tokens _)

end SayLang
