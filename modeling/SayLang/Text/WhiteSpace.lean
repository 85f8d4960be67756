import SayLang.Text.Ranges

/-!
# White space

The characters with the Unicode property `White_Space`. They are the ones that trimming takes off
both ends of a line. They are more than `Char.isWhitespace` knows.
-/

namespace SayLang.Text

/-- The characters with the property `White_Space`: twenty-five of them. -/
def whiteSpace : Ranges :=
  [(0x09, 0x0D), (0x20, 0x20), (0x85, 0x85), (0xA0, 0xA0), (0x1680, 0x1680), (0x2000, 0x200A),
   (0x2028, 0x2029), (0x202F, 0x202F), (0x205F, 0x205F), (0x3000, 0x3000)]

theorem whiteSpace_ascending : whiteSpace.ascending = true := by decide

/-- Is the character white space? -/
def isWhiteSpace (c : Char) : Bool := whiteSpace.covers c.toNat

/-- Every blank that core knows is white space. -/
theorem isWhiteSpace_of_isWhitespace {c : Char} (h : c.isWhitespace) : isWhiteSpace c := by
  simp only [Char.isWhitespace, Bool.or_eq_true, decide_eq_true_eq] at h
  rcases h with ((rfl | rfl) | rfl) | rfl <;> decide

/-- The text without the white space at its end. -/
def trimEnd (text : List Char) : List Char := (text.reverse.dropWhile isWhiteSpace).reverse

/-- The text without the white space at both ends. -/
def trim (text : List Char) : List Char := trimEnd (text.dropWhile isWhiteSpace)

end SayLang.Text
