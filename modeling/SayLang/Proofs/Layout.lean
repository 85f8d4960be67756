import SayLang.Proofs.Lexemes

/-!
# A text and its tokens

Cutting a text loses nothing of it. Between its tokens there are blanks and nothing else, and each
token stands on the line that the line feeds before it say (`Lexer.LaidOut`).

> `Lexer.rest_eq`: what one step skips, cuts and leaves is what there was.
> `Lexer.exists_laidOut`: the whole text, by induction on the tokens.
-/

namespace SayLang

/-! ## Pieces of a text -/

/-- All of the characters are blanks. -/
def Blank (chars : List Char) : Prop := ∀ c ∈ chars, isBlank c = true

instance (chars : List Char) : Decidable (Blank chars) :=
  decidable_of_iff (chars.all isBlank = true) List.all_eq_true

/-- A token and the blanks in front of it. -/
structure Piece where
  /-- The blanks. -/
  gap : List Char
  /-- The token. -/
  token : Token

/-- The text that pieces make up. -/
def written (pieces : List Piece) : List Char :=
  pieces.flatMap fun piece => piece.gap ++ piece.token.literal.toList

theorem written_cons (piece : Piece) (pieces : List Piece) :
    written (piece :: pieces) = piece.gap ++ (piece.token.literal.toList ++ written pieces) := by
  rw [written, List.flatMap_cons, List.append_assoc]
  rfl

theorem blank_takeWhile (chars : List Char) : Blank (chars.takeWhile isBlank) :=
  List.all_eq_true.mp List.all_takeWhile

/-- No line feed is part of a token. -/
theorem Spells.count_toList {kind : Kind} {text : String} (h : Spells kind text) :
    text.toList.count '\n' = 0 := by
  rw [List.count_eq_zero]
  intro hmem
  exact nomatch h.isBlank_eq _ hmem

/-- So the line feeds of a text are those of its blanks. -/
theorem count_written_cons {piece : Piece} (h : Spells piece.token.kind piece.token.literal)
    (pieces : List Piece) (more : List Char) :
    (written (piece :: pieces) ++ more).count '\n' =
      piece.gap.count '\n' + (written pieces ++ more).count '\n' := by
  rw [written_cons, List.append_assoc, List.append_assoc, List.count_append, List.count_append,
    h.count_toList, Nat.zero_add]

namespace Lexer

/-! ## One step -/

/-- Where there are only blanks left the end of input comes next. -/
theorem next_of_nil {lexer : Lexer} (h : lexer.rest.dropWhile isBlank = []) :
    lexer.next =
      (⟨.eof, "", lexer.line + (lexer.rest.takeWhile isBlank).count '\n'⟩,
        ⟨[], lexer.line + (lexer.rest.takeWhile isBlank).count '\n'⟩) := by
  unfold next
  rw [h]

/-- What is cut where there is more than blanks. -/
theorem next_of_cons {lexer : Lexer} {c : Char} {rest : List Char}
    (h : lexer.rest.dropWhile isBlank = c :: rest) :
    lexer.next =
      (⟨(Lexeme.cut c rest).kind, String.ofList (Lexeme.cut c rest).text,
          lexer.line + (lexer.rest.takeWhile isBlank).count '\n'⟩,
        ⟨(Lexeme.cut c rest).rest, lexer.line + (lexer.rest.takeWhile isBlank).count '\n'⟩) := by
  unfold next
  rw [h]

/-- What blanks are followed by does not start with one. -/
theorem isBlank_of_dropWhile {chars rest : List Char} {c : Char}
    (h : chars.dropWhile isBlank = c :: rest) : isBlank c = false := by
  have hhead := List.head_dropWhile_not isBlank (by rw [h]; exact List.cons_ne_nil c rest)
  simpa [h] using hhead

/-- The next token is the end of input, or it is spelled as its kind says. -/
theorem next_eof_or_spells (lexer : Lexer) :
    lexer.next.1.kind = .eof ∧ lexer.rest.dropWhile isBlank = [] ∨
      Spells lexer.next.1.kind lexer.next.1.literal := by
  cases h : lexer.rest.dropWhile isBlank with
  | nil =>
    rw [next_of_nil h]
    exact .inl ⟨rfl, rfl⟩
  | cons c rest =>
    rw [next_of_cons h]
    exact .inr (Lexeme.cut_spells (isBlank_of_dropWhile h) rest)

/-- What is skipped, what is cut and what is left is what there was. -/
theorem rest_eq (lexer : Lexer) :
    lexer.rest =
      lexer.rest.takeWhile isBlank ++ (lexer.next.1.literal.toList ++ lexer.next.2.rest) := by
  have hall := List.takeWhile_append_dropWhile (p := isBlank) (l := lexer.rest)
  cases h : lexer.rest.dropWhile isBlank with
  | nil =>
    rw [next_of_nil h]
    rw [h] at hall
    exact hall.symm
  | cons c rest =>
    rw [next_of_cons h]
    rw [h, ← Lexeme.cut_append c rest] at hall
    rw [String.toList_ofList]
    exact hall.symm

/-- A token stands behind the blanks that are skipped, and the lexer goes on from its line. -/
theorem next_line (lexer : Lexer) :
    lexer.next.1.line = lexer.line + (lexer.rest.takeWhile isBlank).count '\n' ∧
      lexer.next.2.line = lexer.next.1.line := by
  cases h : lexer.rest.dropWhile isBlank with
  | nil =>
    rw [next_of_nil h]
    exact ⟨rfl, rfl⟩
  | cons c rest =>
    rw [next_of_cons h]
    exact ⟨rfl, rfl⟩

/-- The line feeds left are those skipped now and those left then. -/
theorem count_rest (lexer : Lexer) :
    lexer.rest.count '\n' =
      (lexer.rest.takeWhile isBlank).count '\n' + lexer.next.2.rest.count '\n' := by
  have hliteral : lexer.next.1.literal.toList.count '\n' = 0 := by
    rcases lexer.next_eof_or_spells with ⟨-, hnil⟩ | hspells
    · rw [next_of_nil hnil]
      rfl
    · exact hspells.count_toList
  have hcount := congrArg (List.count '\n') lexer.rest_eq
  rwa [List.count_append, List.count_append, hliteral, Nat.zero_add] at hcount

/-- Every line feed is counted when it is passed. -/
theorem next_line_add (lexer : Lexer) :
    lexer.next.2.line + lexer.next.2.rest.count '\n' = lexer.line + lexer.rest.count '\n' := by
  obtain ⟨hline, hline'⟩ := lexer.next_line
  rw [hline', hline, lexer.count_rest, Nat.add_assoc]

/-! ## All tokens -/

/-- What comes next is all that counts. -/
theorem tokens_congr {lexer lexer' : Lexer} (h : lexer.next = lexer'.next) :
    lexer.tokens = lexer'.tokens := by
  rw [tokens, h]
  exact (tokens.eq_1 lexer').symm

/-- What is left of the text is made up of the pieces and blanks behind the last of them, and its
tokens are theirs. -/
structure LaidOut (lexer : Lexer) (pieces : List Piece) (last : List Char) : Prop where
  /-- The tokens are those of the pieces, and the end of input. -/
  tokens_eq : lexer.tokens =
    pieces.map Piece.token ++ [⟨.eof, "", lexer.line + lexer.rest.count '\n'⟩]
  /-- Nothing else is left. -/
  rest_eq : lexer.rest = written pieces ++ last
  /-- Before each token there are blanks. -/
  gap : ∀ piece ∈ pieces, Blank piece.gap
  /-- Each token is spelled as its kind says. -/
  spells : ∀ piece ∈ pieces, Spells piece.token.kind piece.token.literal
  /-- Behind the last one there are blanks. -/
  last : Blank last
  /-- Each token stands below the line feeds before it. -/
  line_eq (before : List Piece) (piece : Piece) (after : List Piece) :
    pieces = before ++ piece :: after →
      piece.token.line = lexer.line + (written before ++ piece.gap).count '\n'

theorem laidOut_nil {lexer : Lexer} (h : lexer.rest.dropWhile isBlank = []) :
    lexer.LaidOut [] lexer.rest := by
  have hall := List.takeWhile_append_dropWhile (p := isBlank) (l := lexer.rest)
  rw [h, List.append_nil] at hall
  refine ⟨?_, rfl, List.forall_mem_nil _, List.forall_mem_nil _, ?_, fun before _ _ hnil => ?_⟩
  · have hnext := next_of_nil h
    rw [tokens, if_pos (by rw [hnext]), hnext, hall]
    rfl
  · rw [← hall]
    exact blank_takeWhile _
  · exact absurd hnil.symm (by simp)

/-- The next token and then the others. -/
theorem LaidOut.cons {lexer : Lexer} {pieces : List Piece} {last : List Char}
    (h : lexer.next.2.LaidOut pieces last)
    (hspells : Spells lexer.next.1.kind lexer.next.1.literal) (hne : lexer.next.1.kind ≠ .eof) :
    lexer.LaidOut (⟨lexer.rest.takeWhile isBlank, lexer.next.1⟩ :: pieces) last := by
  obtain ⟨hline, hline'⟩ := lexer.next_line
  refine ⟨?_, ?_, ?_, ?_, h.last, ?_⟩
  · rw [tokens, if_neg hne, h.tokens_eq, hline', hline, lexer.count_rest, Nat.add_assoc]
    rfl
  · rw [written_cons, List.append_assoc, List.append_assoc, ← h.rest_eq]
    exact lexer.rest_eq
  · exact List.forall_mem_cons.mpr ⟨blank_takeWhile _, h.gap⟩
  · exact List.forall_mem_cons.mpr ⟨hspells, h.spells⟩
  · intro before piece after hpieces
    cases before with
    | nil =>
      obtain ⟨rfl, -⟩ := List.cons.inj hpieces
      exact hline
    | cons first before =>
      obtain ⟨rfl, hrest⟩ := List.cons.inj hpieces
      rw [h.line_eq before piece after hrest, hline', hline, count_written_cons hspells,
        Nat.add_assoc]

/-- Every text is laid out in some way. -/
theorem exists_laidOut (lexer : Lexer) : ∃ pieces last, lexer.LaidOut pieces last := by
  induction lexer using Lexer.tokens.induct with
  | case1 lexer heof =>
    rcases lexer.next_eof_or_spells with ⟨-, hnil⟩ | hspells
    · exact ⟨[], _, laidOut_nil hnil⟩
    · exact absurd heof hspells.kind_ne_eof
  | case2 lexer hne ih =>
    obtain ⟨pieces, last, h⟩ := ih
    rcases lexer.next_eof_or_spells with ⟨heof, -⟩ | hspells
    · exact absurd heof hne
    · exact ⟨_, last, h.cons hspells hne⟩

end Lexer

end SayLang
