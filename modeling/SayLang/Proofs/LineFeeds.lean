import Mathlib.Data.List.Basic
import SayLang.Text.Bytes
import SayLang.Text.WhiteSpace

/-!
# Line feeds in bytes and in text

Bytes are cut into lines before anybody asks whether they are text. A line feed is one byte of its
own in UTF-8, so a line that is text has no line feed but at its end, and trimming takes that off.

> `lines_append`: bytes that are empty or end with a line feed have their lines in front of those of
> what follows.
> `lineFeed_not_mem_trim`: the trimmed text of a line stands on one line.
-/

namespace SayLang.Text

/-! ## Lines of bytes -/

/-- Where nothing is left unfinished the lines of what follows are cut as if it stood alone. -/
theorem lines_append : ∀ {front : Bytes} (_ : front = [] ∨ front.getLast? = some lineFeed)
    (rest : Bytes), lines (front ++ rest) = lines front ++ lines rest
  | [], _, _ => rfl
  | [byte], h, rest => by
    obtain rfl : byte = lineFeed := by simpa using h
    rw [List.singleton_append, lines, if_pos rfl]
    rfl
  | byte :: next :: front, h, rest => by
    have hfront : (next :: front).getLast? = some lineFeed := by simpa using h
    have hlines := lines_append (.inr hfront) rest
    have hfirst := lines_of_ne_nil (List.cons_ne_nil next front)
    rw [List.cons_append, lines, hlines, lines.eq_2 byte (next :: front), hfirst]
    split <;> rfl

/-- A line feed stands nowhere in a line but at its end. -/
theorem lineFeed_not_mem_dropLast {bytes : Bytes} :
    ∀ {line : Bytes}, line ∈ lines bytes → lineFeed ∉ line.dropLast := by
  induction bytes with
  | nil => exact fun hline => absurd hline List.not_mem_nil
  | cons byte rest ih =>
    intro line hline
    rw [lines] at hline
    split at hline
    · rcases List.mem_cons.mp hline with rfl | hlater
      · exact List.not_mem_nil
      · exact ih hlater
    · next hbyte =>
      cases hlines : lines rest with
      | nil =>
        rw [hlines] at hline
        rw [List.mem_singleton.mp hline]
        exact List.not_mem_nil
      | cons first others =>
        rw [hlines] at hline ih
        rcases List.mem_cons.mp hline with rfl | hlater
        · -- The byte is in front of a line, or of nothing: then there is no byte but the last.
          cases first with
          | nil => exact List.not_mem_nil
          | cons next more =>
            rw [List.dropLast_cons_of_ne_nil (List.cons_ne_nil next more)]
            exact List.not_mem_cons_of_ne_of_not_mem (Ne.symm hbyte) (ih List.mem_cons_self)
        · exact ih (List.mem_cons_of_mem first hlater)

/-! ## Characters and their bytes -/

/-- Bytes that are text are the bytes of its characters, one after the other. -/
theorem flatMap_of_decode? {bytes : Bytes} {text : String} (h : decode? bytes = some text) :
    text.toList.flatMap String.utf8EncodeChar = bytes := by
  rw [decode?, String.fromUTF8?] at h
  split at h
  · have htext : text.toByteArray = bytes.toByteArray := by
      rw [← Option.some.inj h]
      rfl
    rw [← List.toByteArray_inj, ← htext, ← String.utf8Encode_toList, List.utf8Encode]
  · cases h

/-! ## Trimming -/

/-- White space that is left at the end of a trimmed text is not the last character. -/
theorem mem_dropLast_of_mem_trimEnd {text : List Char} {c : Char} (hmem : c ∈ trimEnd text)
    (hc : isWhiteSpace c = true) : c ∈ text.dropLast := by
  have hkept : c ∈ text.reverse.dropWhile isWhiteSpace := List.mem_reverse.mp hmem
  have hne := List.ne_nil_of_mem hkept
  rw [← List.cons_head_tail hne] at hkept
  rcases List.mem_cons.mp hkept with rfl | htail
  · exact absurd hc (Bool.eq_false_iff.mp (List.head_dropWhile_not isWhiteSpace hne))
  · have hsublist := (List.dropWhile_sublist isWhiteSpace (l := text.reverse)).tail
    rw [List.tail_reverse] at hsublist
    exact List.mem_reverse.mp (hsublist.subset htail)

/-- The same with the front trimmed as well. -/
theorem mem_dropLast_of_mem_trim {text : List Char} {c : Char} (hmem : c ∈ trim text)
    (hc : isWhiteSpace c = true) : c ∈ text.dropLast := by
  have hkept := mem_dropLast_of_mem_trimEnd hmem hc
  obtain ⟨front, hfront⟩ := List.dropWhile_suffix (l := text) isWhiteSpace
  have hne : text.dropWhile isWhiteSpace ≠ [] := by
    intro h
    rw [h] at hkept
    exact List.not_mem_nil hkept
  rw [← hfront, List.dropLast_append_of_ne_nil hne]
  exact List.mem_append_right front hkept

/-- The trimmed text of a line stands on one line. -/
theorem lineFeed_not_mem_trim {bytes line : Bytes} {text : String} (hline : line ∈ lines bytes)
    (htext : decode? line = some text) : '\n' ∉ trim text.toList := by
  intro hmem
  have hinside : '\n' ∈ text.toList.dropLast := mem_dropLast_of_mem_trim hmem (by decide)
  have hne : text.toList ≠ [] := List.ne_nil_of_mem ((List.dropLast_subset _) hinside)
  apply lineFeed_not_mem_dropLast hline
  rw [← flatMap_of_decode? htext, ← List.dropLast_append_getLast hne, List.flatMap_append,
    List.flatMap_singleton, List.dropLast_append_of_ne_nil String.utf8EncodeChar_ne_nil]
  exact List.mem_append_left _ (List.mem_flatMap.mpr ⟨'\n', hinside, by decide⟩)

end SayLang.Text
