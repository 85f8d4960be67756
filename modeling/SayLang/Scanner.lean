import SayLang.Lexer

/-!
# Cutting source text by byte positions

A `Scanner` cuts the same tokens as a `Lexer`, but keeps the whole text and two positions in it,
counted in bytes: where the token being cut starts, and the end of the last character passed. The
text of a token is the slice between them. A slice must lie inside the text and start and stop
between two characters, so `Scanner.next` answers none where it would not.
-/

namespace SayLang

/-- The characters of a text from the position on, each with its own position. -/
def indexed (pos : String.Pos.Raw) : List Char → List (String.Pos.Raw × Char)
  | [] => []
  | c :: rest => (pos, c) :: indexed (pos + c) rest

/-- A place in a text, and the token being cut there. -/
structure Scanner where
  /-- The whole text. -/
  source : String
  /-- The characters not yet passed, with their positions. -/
  ahead : List (String.Pos.Raw × Char)
  /-- Where the token starts. -/
  start : String.Pos.Raw
  /-- Just behind the last character passed. -/
  cursor : String.Pos.Raw
  /-- The line that the next character stands on. -/
  line : Nat

namespace Scanner

/-- The start of a text. -/
def ofSource (source : String) : Scanner := ⟨source, indexed 0 source.toList, 0, 0, 1⟩

/-- The next character, if there is one. -/
def peek (scanner : Scanner) : Option Char := scanner.ahead.head?.map Prod.snd

/-- Passes the next character, if there is one. -/
def advance (scanner : Scanner) : Scanner :=
  match scanner.ahead with
  | [] => scanner
  | (pos, c) :: ahead => { scanner with ahead, cursor := pos + c }

theorem advance_shorter {scanner : Scanner} {p : Char → Bool} (h : scanner.peek.any p = true) :
    scanner.advance.ahead.length < scanner.ahead.length := by
  unfold peek at h
  unfold advance
  split
  next hnil =>
    rw [hnil] at h
    exact nomatch h
  next pos c ahead hcons =>
    rw [hcons]
    exact Nat.lt_succ_self _

/-- Passes characters of the class for as long as they are next. -/
def advanceWhile (p : Char → Bool) (scanner : Scanner) : Scanner :=
  if scanner.peek.any p then scanner.advance.advanceWhile p else scanner
termination_by scanner.ahead.length
decreasing_by exact advance_shorter ‹_›

/-- Behind a line feed is the next line. -/
def countLine (scanner : Scanner) : Scanner :=
  { scanner with line := if scanner.peek = some '\n' then scanner.line + 1 else scanner.line }

/-- Passes blanks for as long as they are next, counting line feeds. -/
def skipBlanks (scanner : Scanner) : Scanner :=
  if scanner.peek.any isBlank then scanner.countLine.advance.skipBlanks else scanner
termination_by scanner.ahead.length
decreasing_by exact advance_shorter (show scanner.countLine.peek.any isBlank = true from ‹_›)

/-- The slice of the text from the start of the token to the cursor, if it is one. -/
def slice? (scanner : Scanner) : Option String :=
  if scanner.start.IsValid scanner.source ∧ scanner.cursor.IsValid scanner.source ∧
      scanner.start ≤ scanner.cursor then
    some (scanner.start.extract scanner.source scanner.cursor)
  else none

/-- Passes the other characters of a word. Its slice tells a keyword from a name. -/
def word? (scanner : Scanner) : Option (Kind × Scanner) :=
  let scanner := scanner.advanceWhile isWordChar
  scanner.slice?.map fun word => (Kind.ofWord word, scanner)

/-- The kind of the token that starts with the character just passed, and the place behind it. -/
def classify (scanner : Scanner) (c : Char) : Option (Kind × Scanner) :=
  match c with
  | '+' => some (.plus, scanner)
  | '-' => some (.minus, scanner)
  | '*' => some (.asterisk, scanner)
  | '/' => some (.slash, scanner)
  | '<' => some (.less, scanner)
  | '>' => some (.greater, scanner)
  | '(' => some (.leftParen, scanner)
  | ')' => some (.rightParen, scanner)
  | '{' => some (.leftBrace, scanner)
  | '}' => some (.rightBrace, scanner)
  | ',' => some (.comma, scanner)
  | ';' => some (.semicolon, scanner)
  | '=' =>
    if scanner.peek = some '=' then some (.equalEqual, scanner.advance) else some (.assign, scanner)
  | '!' =>
    if scanner.peek = some '=' then some (.bangEqual, scanner.advance) else some (.bang, scanner)
  | _ =>
    if c.isDigit then some (.number, scanner.advanceWhile Char.isDigit)
    else if isWordChar c then scanner.word?
    else some (.illegal, scanner)

/-- Passes the character, and a token starts with it. -/
def mark (scanner : Scanner) (c : Char) : Scanner :=
  let scanner := scanner.advance
  { scanner with start := scanner.cursor.unoffsetBy ⟨c.utf8Size⟩ }

/-- The next token, and the place after it. -/
def next (scanner : Scanner) : Option (Token × Scanner) :=
  let scanner := scanner.skipBlanks
  match scanner.peek with
  | none => some (⟨.eof, "", scanner.line⟩, scanner)
  | some c => do
    let (kind, scanner) ← (scanner.mark c).classify c
    return (⟨kind, ← scanner.slice?, scanner.line⟩, scanner)

/-- The first `count` tokens from here on. -/
def take (scanner : Scanner) : Nat → Option (List Token)
  | 0 => some []
  | count + 1 => do
    let (token, scanner) ← scanner.next
    return token :: (← scanner.take count)

end Scanner

end SayLang
