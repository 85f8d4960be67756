import SayLang.Token

/-!
# Cutting source text into tokens

A `Lexer` is what is left of the source together with the line reached. `Lexer.next` skips blanks,
counting line feeds, and cuts off the longest token that starts there; what the language does not
know becomes an illegal token of one character, so cutting never fails. Past the last token every
further call answers the end of input again.

> `Lexeme.cut_append`: the text of a token and what follows it are the characters it was cut from.
> `Lexer.next_shorter`: every token but the end of input makes the rest shorter.

The second is why `Lexer.tokens`, the list of all tokens, is finite.
-/

namespace SayLang

/-- The characters that separate tokens: space, tab, carriage return and line feed. No other white
space counts. -/
def isBlank (c : Char) : Bool := c = ' ' || c = '\t' || c = '\r' || c = '\n'

/-- The characters of a word: the ASCII letters and the underscore. A digit is not one. -/
def isWordChar (c : Char) : Bool := c.isAlpha || c = '_'

/-- A token cut off the front of a text. -/
structure Lexeme where
  /-- The category of the token. -/
  kind : Kind
  /-- Its characters. -/
  text : List Char
  /-- The characters after it. -/
  rest : List Char

namespace Lexeme

/-- The longest token that starts with the character `c`, where `rest` follows. -/
def cut (c : Char) (rest : List Char) : Lexeme :=
  match c with
  | '+' => ⟨.plus, [c], rest⟩
  | '-' => ⟨.minus, [c], rest⟩
  | '*' => ⟨.asterisk, [c], rest⟩
  | '/' => ⟨.slash, [c], rest⟩
  | '<' => ⟨.less, [c], rest⟩
  | '>' => ⟨.greater, [c], rest⟩
  | '(' => ⟨.leftParen, [c], rest⟩
  | ')' => ⟨.rightParen, [c], rest⟩
  | '{' => ⟨.leftBrace, [c], rest⟩
  | '}' => ⟨.rightBrace, [c], rest⟩
  | ',' => ⟨.comma, [c], rest⟩
  | ';' => ⟨.semicolon, [c], rest⟩
  | '=' =>
    match rest with
    | '=' :: rest => ⟨.equalEqual, [c, '='], rest⟩
    | _ => ⟨.assign, [c], rest⟩
  | '!' =>
    match rest with
    | '=' :: rest => ⟨.bangEqual, [c, '='], rest⟩
    | _ => ⟨.bang, [c], rest⟩
  | _ =>
    if c.isDigit then
      ⟨.number, c :: rest.takeWhile Char.isDigit, rest.dropWhile Char.isDigit⟩
    else if isWordChar c then
      let word := c :: rest.takeWhile isWordChar
      ⟨Kind.ofWord (String.ofList word), word, rest.dropWhile isWordChar⟩
    else
      ⟨.illegal, [c], rest⟩

/-- The text of a token and what follows it are the characters it was cut from. -/
theorem cut_append (c : Char) (rest : List Char) :
    (cut c rest).text ++ (cut c rest).rest = c :: rest := by
  unfold cut
  split <;> (try split) <;> (try split) <;> simp [List.takeWhile_append_dropWhile]

/-- A token has at least one character. -/
theorem cut_text_ne_nil (c : Char) (rest : List Char) : (cut c rest).text ≠ [] := by
  unfold cut
  split <;> (try split) <;> (try split) <;> simp

/-- What follows a token is no longer than what followed its first character. -/
theorem length_cut_rest_le (c : Char) (rest : List Char) :
    (cut c rest).rest.length ≤ rest.length := by
  have happ := congrArg List.length (cut_append c rest)
  have hpos := List.length_pos_iff.mpr (cut_text_ne_nil c rest)
  simp only [List.length_append, List.length_cons] at happ
  omega

end Lexeme

/-- A position in the source: what is left of it, and the line reached. -/
structure Lexer where
  /-- The characters still to be cut. -/
  rest : List Char
  /-- The line that the first of them stands on. -/
  line : Nat

namespace Lexer

/-- The start of a source text. -/
def ofSource (source : String) : Lexer := ⟨source.toList, 1⟩

/-- The next token, and the position after it. At the end of the source this is the end of input,
with an empty text, however often it is asked for. -/
def next (lexer : Lexer) : Token × Lexer :=
  let line := lexer.line + (lexer.rest.takeWhile isBlank).count '\n'
  match lexer.rest.dropWhile isBlank with
  | [] => (⟨.eof, "", line⟩, ⟨[], line⟩)
  | c :: rest =>
    let lexeme := Lexeme.cut c rest
    (⟨lexeme.kind, String.ofList lexeme.text, line⟩, ⟨lexeme.rest, line⟩)

/-- Every token but the end of input makes the rest of the source shorter. -/
theorem next_shorter {lexer : Lexer} (h : lexer.next.1.kind ≠ .eof) :
    lexer.next.2.rest.length < lexer.rest.length := by
  unfold next at h ⊢
  have hdrop := (List.dropWhile_suffix isBlank (l := lexer.rest)).length_le
  split at h
  · exact absurd rfl h
  · next c rest heq =>
    rw [heq] at hdrop
    have hcut := Lexeme.length_cut_rest_le c rest
    simp only [List.length_cons] at hdrop ⊢
    omega

/-- All tokens from here on, up to and including the first end of input. -/
def tokens (lexer : Lexer) : List Token :=
  if lexer.next.1.kind = .eof then [lexer.next.1]
  else lexer.next.1 :: lexer.next.2.tokens
termination_by lexer.rest.length
decreasing_by exact next_shorter ‹_›

/-- The first `count` tokens from here on, the end of input repeated as often as needed. -/
def take (lexer : Lexer) : Nat → List Token
  | 0 => []
  | count + 1 => lexer.next.1 :: lexer.next.2.take count

end Lexer

/-- All tokens of a source text; the last one is always the end of input. -/
def tokenize (source : String) : List Token := (Lexer.ofSource source).tokens

end SayLang
