import SayLang.Lexer

/-!
# Cursors over tokens

A parser sees the tokens through a cursor: the current token, the one after it, and a step that
moves on by one. Past the end of input every further token is the end of input again, so a step is
always possible.

There are two kinds of cursors. A `Window` holds the two tokens in sight and pulls further ones from
its lexer only when they come into sight. A `Strip` walks along a list of tokens that was cut
beforehand. Parsing is written over any cursor, so that both can be compared.

`ahead` bounds the number of tokens from the current one to the end of input. It is what makes
recursive parsing finite.
-/

namespace SayLang

/-- A view of two neighbouring tokens that can be moved on by one. -/
class Cursor (κ : Type) where
  /-- The token looked at. -/
  current : κ → Token
  /-- The token after it. -/
  peek : κ → Token
  /-- One token on. -/
  advance : κ → κ
  /-- How often the cursor has been moved on. -/
  position : κ → Nat
  /-- A bound on the number of tokens from the current one up to the end of input. -/
  ahead : κ → Nat

/-! ## Pulling tokens when they come into sight -/

/-- The two tokens in sight and the lexer that gives the ones after them. -/
structure Window where
  /-- How often the window has been moved on. -/
  position : Nat
  /-- The token looked at. -/
  current : Token
  /-- The token after it. -/
  peek : Token
  /-- What is left of the source after both. -/
  lexer : Lexer

namespace Window

/-- The window on the first two tokens. -/
def ofLexer (lexer : Lexer) : Window :=
  let first := lexer.next
  let second := first.2.next
  ⟨0, first.1, second.1, second.2⟩

/-- The window on the first two tokens of a source text. -/
def ofSource (source : String) : Window := ofLexer (Lexer.ofSource source)

/-- One token on: what was ahead becomes current, and one token is pulled. -/
def advance (window : Window) : Window :=
  let pulled := window.lexer.next
  ⟨window.position + 1, window.peek, pulled.1, pulled.2⟩

/-- A bound on the number of tokens from the current one up to the end of input: none if that is
reached, one if it is ahead, and otherwise at most one token for each character left. -/
def ahead (window : Window) : Nat :=
  if window.current.kind = .eof then 0
  else if window.peek.kind = .eof then 1
  else window.lexer.rest.length + 2

/-- Moving on brings the end of input nearer until it is reached. -/
theorem ahead_advance_lt {window : Window} (h : window.current.kind ≠ .eof) :
    window.advance.ahead < window.ahead := by
  unfold ahead advance
  by_cases hpeek : window.peek.kind = .eof
  · simp [h, hpeek]
  · by_cases hpulled : window.lexer.next.1.kind = .eof
    · simp [h, hpeek, hpulled]
    · have hshort := Lexer.next_shorter hpulled
      simp only [h, hpeek, hpulled, if_false]
      omega

end Window

instance : Cursor Window :=
  ⟨Window.current, Window.peek, Window.advance, Window.position, Window.ahead⟩

/-! ## Walking along a list of tokens -/

/-- A token of a list and the tokens after it. -/
structure Strip where
  /-- How often the strip has been moved on. -/
  position : Nat
  /-- The token looked at. -/
  current : Token
  /-- The tokens after it. -/
  rest : List Token

namespace Strip

/-- The start of a list of tokens. An empty list counts as the end of input alone. -/
def ofTokens : List Token → Strip
  | [] => ⟨0, ⟨.eof, "", 1⟩, []⟩
  | token :: rest => ⟨0, token, rest⟩

/-- The token after the current one; the last token of the list follows itself. -/
def peek (strip : Strip) : Token := strip.rest.headD strip.current

/-- One token on; the last token of the list stays. -/
def advance (strip : Strip) : Strip :=
  match strip.rest with
  | [] => ⟨strip.position + 1, strip.current, []⟩
  | token :: rest => ⟨strip.position + 1, token, rest⟩

/-- What is looked at after a step is what was ahead before it. -/
theorem current_advance (strip : Strip) : strip.advance.current = strip.peek := by
  unfold advance peek
  split <;> simp [*]

end Strip

instance : Cursor Strip :=
  ⟨Strip.current, Strip.peek, Strip.advance, Strip.position, fun strip => strip.rest.length⟩

end SayLang
