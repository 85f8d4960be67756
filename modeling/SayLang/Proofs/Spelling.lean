import SayLang.Proofs.MaximalMunch
import SayLang.Proofs.Sight

/-!
# Writing tokens out

Tokens written one after the other, each with a space behind it, are cut again into tokens of the
same kinds and literals.

> `tokenize_write`: that, with the end of input behind the last one.

It holds of tokens that stand on their own (`Token.StandsAlone`), as every token does that was cut
from a text, the end of input apart.
-/

namespace SayLang

namespace Lexeme

/-- No token of a text is the end of input. -/
theorem cut_kind_ne_eof (c : Char) (rest : List Char) : (cut c rest).kind ≠ .eof := by
  unfold cut
  split <;> (try split) <;> (try split) <;> simp [Kind.ofWord]
  split <;> simp

end Lexeme

/-! ## Tokens that stand on their own -/

/-- Written in front of a space, the token is cut again. -/
def Token.StandsAlone (token : Token) : Prop :=
  ∃ c text, token.literal.toList = c :: text ∧ isBlank c = false ∧
    ∀ more, Lexeme.cut c (text ++ ' ' :: more) = ⟨token.kind, c :: text, ' ' :: more⟩

/-- That is, it is spelled as its kind says: such a token ends before a blank. -/
theorem Token.standsAlone_iff_spells {token : Token} :
    token.StandsAlone ↔ Spells token.kind token.literal := by
  constructor
  · intro ⟨c, text, hliteral, hblank, hcut⟩
    have hspells := Lexeme.cut_spells hblank (text ++ [' '])
    rwa [hcut [], ← hliteral, String.ofList_toList] at hspells
  · intro h
    obtain ⟨c, text, hliteral⟩ := h.exists_cons
    refine ⟨c, text, hliteral, ?_, fun more => ?_⟩
    · exact h.isBlank_eq c (by rw [hliteral]; exact List.mem_cons_self)
    · exact (h.cut_eq_iff hliteral _).mpr (Kind.endsBefore_of_isBlank _ rfl more)

theorem Token.StandsAlone.kind_ne_eof {token : Token} (h : token.StandsAlone) :
    token.kind ≠ .eof :=
  (standsAlone_iff_spells.mp h).kind_ne_eof

/-- The tokens of a text stand on their own, the end of input apart. -/
theorem Lexer.tokens_standAlone (lexer : Lexer) :
    ∀ token ∈ lexer.tokens, token.kind ≠ .eof → token.StandsAlone := by
  obtain ⟨pieces, last, h⟩ := lexer.exists_laidOut
  intro token htoken hne
  rw [h.tokens_eq] at htoken
  rcases List.mem_append.mp htoken with hmem | hlast
  · obtain ⟨piece, hpiece, rfl⟩ := List.mem_map.mp hmem
    exact Token.standsAlone_iff_spells.mpr (h.spells piece hpiece)
  · rw [List.mem_singleton.mp hlast] at hne
    exact absurd rfl hne

/-- So do the tokens that goals ask for by name. -/
theorem Kind.sample_standsAlone {kind : Kind} (h : kind ∈ finishing) :
    kind.sample.StandsAlone := by
  fin_cases h
  · exact ⟨'x', [], rfl, rfl, fun more => rfl⟩
  · exact ⟨'=', [], rfl, rfl, fun more => rfl⟩
  · exact ⟨'(', [], rfl, rfl, fun more => rfl⟩
  · exact ⟨')', [], rfl, rfl, fun more => rfl⟩
  · exact ⟨'{', [], rfl, rfl, fun more => rfl⟩
  · exact ⟨'}', [], rfl, rfl, fun more => rfl⟩

/-! ## Writing them one after the other -/

/-- The texts of tokens, each with a space behind it. -/
def writeOut (tokens : List Token) : List Char :=
  tokens.flatMap fun token => token.literal.toList ++ [' ']

theorem blank_space : Blank [' '] := by decide

/-- With a space in front, they are tokens with a space in front of each. -/
theorem writeOut_eq_written (tokens : List Token) :
    ' ' :: writeOut tokens = written (tokens.map fun token => ⟨[' '], token⟩) ++ [' '] := by
  induction tokens with
  | nil => rfl
  | cons token tokens ih =>
    rw [List.map_cons, written_cons, List.append_assoc, List.append_assoc, ← ih, writeOut,
      List.flatMap_cons, List.append_assoc]
    rfl

/-- A space in front of a text changes none of its tokens. -/
theorem Lexer.tokens_cons_space (rest : List Char) (line : Nat) :
    (⟨' ' :: rest, line⟩ : Lexer).tokens = (⟨rest, line⟩ : Lexer).tokens := by
  refine tokens_congr ?_
  unfold next
  rw [List.takeWhile_cons_of_pos rfl, List.dropWhile_cons_of_pos rfl,
    List.count_cons_of_ne (by decide)]

/-- Tokens written out are cut into tokens of the same kinds and literals, and the end of input. -/
theorem tokenize_write {tokens : List Token} (h : ∀ token ∈ tokens, token.StandsAlone) :
    (tokenize (String.ofList (writeOut tokens))).map Token.spelling =
      tokens.map Token.spelling ++ [(.eof, "")] := by
  let pieces : List Piece := tokens.map fun token => ⟨[' '], token⟩
  have hpieces : ∀ piece ∈ pieces,
      Blank piece.gap ∧ Spells piece.token.kind piece.token.literal := by
    rw [List.forall_mem_map]
    exact fun token htoken => ⟨blank_space, Token.standsAlone_iff_spells.mp (h token htoken)⟩
  -- there is a space between any two
  have hchain : pieces.IsChain fun first second =>
      second.gap = [] → ¬ first.token.Clashes second.token :=
    List.Pairwise.isChain (List.pairwise_map.mpr (List.pairwise_of_forall fun _ _ => nofun))
  have hrest : (⟨' ' :: writeOut tokens, 1⟩ : Lexer).rest = written pieces ++ [' '] :=
    writeOut_eq_written tokens
  have hwritten := (Lexer.spellings_tokens_eq_iff blank_space hpieces hrest).mpr hchain
  rw [Lexer.tokens_cons_space, List.map_map] at hwritten
  rw [tokenize, Lexer.ofSource, String.toList_ofList]
  exact hwritten

end SayLang
