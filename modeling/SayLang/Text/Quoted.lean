import SayLang.Text.Combining
import SayLang.Text.Unseen

/-!
# Quoted text

Free text between double quotes. Inside, the quote and the backslash are written with a backslash
in front, so the closing quote is the first one without. Tab, line feed, carriage return and null
have escapes of one letter. Every other character that shows nothing, or that would be drawn onto
the one in front of it, is written by its number in hexadecimal. Everything else stands as it is.
-/

namespace SayLang.Text

/-- The number of a character in lower-case hexadecimal digits, without leading zeros. -/
def hexNumber (c : Char) : List Char := Nat.toDigits 16 c.toNat

/-- A character as it stands inside quotes. -/
def escape (c : Char) : List Char :=
  match c with
  | '"' => ['\\', '"']
  | '\\' => ['\\', '\\']
  | '\t' => ['\\', 't']
  | '\n' => ['\\', 'n']
  | '\r' => ['\\', 'r']
  | '\x00' => ['\\', '0']
  | _ =>
    if isUnseen c || isCombining c then
      ['\\', 'u', '{'] ++ hexNumber c ++ ['}']
    else [c]

/-- The text between double quotes. -/
def quote (text : String) : String :=
  "\"" ++ String.ofList (text.toList.flatMap escape) ++ "\""

end SayLang.Text
