/-!
# Bytes and their lines

Text comes from outside as bytes. A line ends after its line feed, and what follows the last line
feed is a line of its own when there is anything left. Bytes are text when they are valid UTF-8.

> `flatten_lines`: the lines one after the other are all the bytes.
> `lines_of_ne_nil`: the first of them is the one that `cutLine` cuts off.
-/

namespace SayLang.Text

/-- Bytes as they are read. -/
abbrev Bytes : Type := List UInt8

/-- The text that the bytes encode, when they are valid UTF-8. -/
def decode? (bytes : Bytes) : Option String := String.fromUTF8? bytes.toByteArray

/-- The bytes of a text. -/
def encode (text : String) : Bytes := text.toUTF8.data.toList

/-- The bytes of a text are read back as the text. -/
theorem decode?_encode (text : String) : decode? (encode text) = some text := by
  have hbytes : (encode text).toByteArray = text.toByteArray :=
    ByteArray.ext (List.data_toByteArray.trans Array.toArray_toList)
  rw [decode?, hbytes, String.fromUTF8?, dif_pos text.isValidUTF8]
  rfl

/-- The byte that ends a line. -/
def lineFeed : UInt8 := 0x0A

/-- The bytes up to and including the first line feed, and the bytes after it. -/
def cutLine : Bytes → Bytes × Bytes
  | [] => ([], [])
  | byte :: rest =>
    if byte = lineFeed then ([byte], rest)
    else
      let cut := cutLine rest
      (byte :: cut.1, cut.2)

/-- The line cut off and the bytes after it are all the bytes. -/
theorem cutLine_append (bytes : Bytes) : (cutLine bytes).1 ++ (cutLine bytes).2 = bytes := by
  induction bytes with
  | nil => rfl
  | cons byte rest ih =>
    unfold cutLine
    split
    · rfl
    · exact congrArg (byte :: ·) ih

/-- A line is cut off as long as there are bytes. -/
theorem cutLine_fst_ne_nil {bytes : Bytes} (h : bytes ≠ []) : (cutLine bytes).1 ≠ [] := by
  cases bytes with
  | nil => exact absurd rfl h
  | cons byte rest =>
    unfold cutLine
    split <;> exact List.cons_ne_nil _ _

/-- So fewer bytes are left. -/
theorem length_cutLine_snd_lt {bytes : Bytes} (h : bytes ≠ []) :
    (cutLine bytes).2.length < bytes.length := by
  have happend := congrArg List.length (cutLine_append bytes)
  have hpos := List.length_pos_iff.mpr (cutLine_fst_ne_nil h)
  rw [List.length_append] at happend
  omega

/-- The bytes cut after each line feed. -/
def lines : Bytes → List Bytes
  | [] => []
  | byte :: rest =>
    if byte = lineFeed then [byte] :: lines rest
    else
      match lines rest with
      | [] => [[byte]]
      | line :: others => (byte :: line) :: others

/-- The lines one after the other are all the bytes. -/
theorem flatten_lines (bytes : Bytes) : (lines bytes).flatten = bytes := by
  induction bytes with
  | nil => rfl
  | cons byte rest ih =>
    unfold lines
    split
    · rw [List.flatten_cons, ih]; rfl
    · split
      · next h => rw [h] at ih; rw [← ih]; rfl
      · next h => rw [h] at ih; rw [← ih]; rfl

/-- The first line is the one cut off, and the others are those of the bytes after it. -/
theorem lines_of_ne_nil {bytes : Bytes} (h : bytes ≠ []) :
    lines bytes = (cutLine bytes).1 :: lines (cutLine bytes).2 := by
  induction bytes with
  | nil => exact absurd rfl h
  | cons byte rest ih =>
    rw [lines, cutLine]
    split
    · rfl
    · cases rest with
      | nil => rfl
      | cons next others => rw [ih (List.cons_ne_nil _ _)]

end SayLang.Text
