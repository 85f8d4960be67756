/-!
# Tokens

A token is a kind, the text it was written with, and the line it stands on. Kinds fall into words
(keywords and identifiers), numbers, operators, punctuation, the illegal character, and the end of
input, which counts as a token of its own with an empty text.

A kind has two spellings. `Kind.text` is how messages of the language speak about it: the operator
or keyword itself, or a general term in capitals. `Kind.name` is its name as a category, which the
log of the parser uses.
-/

namespace SayLang

/-- The different kinds of tokens. -/
inductive Kind where
  /-- A name: letters and underscores that spell no keyword. -/
  | identifier
  /-- A run of decimal digits. -/
  | number
  /-- The keyword that declares a name. -/
  | sayWord
  /-- The keyword that declares a name never to change. -/
  | invarWord
  /-- The keyword `true`. -/
  | trueWord
  /-- The keyword `false`. -/
  | falseWord
  /-- The keyword that opens a conditional. -/
  | ifWord
  /-- The keyword that opens the other branch of a conditional. -/
  | elseWord
  /-- The keyword that returns from a function. -/
  | returnWord
  /-- The keyword that opens a function. -/
  | funWord
  /-- The operator `+`. -/
  | plus
  /-- The operator `-`. -/
  | minus
  /-- The operator `*`. -/
  | asterisk
  /-- The operator `/`. -/
  | slash
  /-- The operator `!`. -/
  | bang
  /-- The operator `<`. -/
  | less
  /-- The operator `>`. -/
  | greater
  /-- The operator `==`. -/
  | equalEqual
  /-- The operator `!=`. -/
  | bangEqual
  /-- The sign `=` of a declaration. -/
  | assign
  /-- An opening parenthesis. -/
  | leftParen
  /-- A closing parenthesis. -/
  | rightParen
  /-- An opening brace. -/
  | leftBrace
  /-- A closing brace. -/
  | rightBrace
  /-- A comma. -/
  | comma
  /-- A semicolon. -/
  | semicolon
  /-- A character that the language does not know. -/
  | illegal
  /-- The end of input. -/
  | eof
deriving DecidableEq

namespace Kind

/-- The kind as messages of the language write it. -/
def text : Kind → String
  | identifier => "IDENTIFIER"
  | number => "NUMBER"
  | sayWord => "say"
  | invarWord => "invar"
  | trueWord => "true"
  | falseWord => "false"
  | ifWord => "if"
  | elseWord => "else"
  | returnWord => "return"
  | funWord => "fun"
  | plus => "+"
  | minus => "-"
  | asterisk => "*"
  | slash => "/"
  | bang => "!"
  | less => "<"
  | greater => ">"
  | equalEqual => "=="
  | bangEqual => "!="
  | assign => "="
  | leftParen => "("
  | rightParen => ")"
  | leftBrace => "\x7b"
  | rightBrace => "\x7d"
  | comma => ","
  | semicolon => ";"
  | illegal => "ILLEGAL"
  | eof => "EOF"

/-- The name of the kind as a category. -/
def name : Kind → String
  | identifier => "Identifier"
  | number => "Number"
  | sayWord => "Say"
  | invarWord => "Invar"
  | trueWord => "True"
  | falseWord => "False"
  | ifWord => "If"
  | elseWord => "Else"
  | returnWord => "Return"
  | funWord => "Function"
  | plus => "Plus"
  | minus => "Minus"
  | asterisk => "Asterisk"
  | slash => "Slash"
  | bang => "Bang"
  | less => "Less"
  | greater => "Greater"
  | equalEqual => "EqualEqual"
  | bangEqual => "BangEqual"
  | assign => "Assign"
  | leftParen => "LeftParen"
  | rightParen => "RightParen"
  | leftBrace => "LeftBrace"
  | rightBrace => "RightBrace"
  | comma => "Comma"
  | semicolon => "Semicolon"
  | illegal => "Illegal"
  | eof => "Eof"

/-- All kinds, in the order in which they are introduced. -/
def all : List Kind :=
  [identifier, number, sayWord, invarWord, trueWord, falseWord, ifWord, elseWord, returnWord,
    funWord, plus, minus, asterisk, slash, bang, less, greater, equalEqual, bangEqual, assign,
    leftParen, rightParen, leftBrace, rightBrace, comma, semicolon, illegal, eof]

theorem mem_all (kind : Kind) : kind ∈ all := by cases kind <;> decide

/-- The kind with the given name. -/
def ofName? (name : String) : Option Kind := all.find? (·.name = name)

/-- The kind of a word, that is of a whole run of letters and underscores: a keyword is never part
of a longer word. -/
def ofWord (word : String) : Kind :=
  match word with
  | "say" => sayWord
  | "invar" => invarWord
  | "true" => trueWord
  | "false" => falseWord
  | "if" => ifWord
  | "else" => elseWord
  | "return" => returnWord
  | "fun" => funWord
  | _ => identifier

end Kind

/-- A piece of source text. -/
structure Token where
  /-- The category of the token. -/
  kind : Kind
  /-- The text it was written with. -/
  literal : String
  /-- The line it stands on, counted from one. -/
  line : Nat
deriving DecidableEq

end SayLang
