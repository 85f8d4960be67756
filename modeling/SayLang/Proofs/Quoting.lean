import SayLang.Text.Quoted

/-!
# Quoted text can be read back

Each character of a quoted text is written in a way that says where it ends, and none of them starts
with a quote. So a quoted text ends at its closing quote, and there is only one text that is quoted
so.

> `Text.readEscape_escape`: what is written for a character is read back as that character.
> `Text.quote_append_inj`: so is a whole text between quotes, whatever stands behind it.
-/

namespace SayLang.Text

/-! ## Hexadecimal numbers -/

/-- The digit that a character stands for. -/
def hexDigit (c : Char) : Nat :=
  if c.isDigit then c.toNat - '0'.toNat else c.toNat - 'a'.toNat + 10

/-- The number that hexadecimal digits stand for. -/
def hexValue (digits : List Char) : Nat :=
  digits.foldl (fun value c => 16 * value + hexDigit c) 0

theorem hexDigit_digitChar {d : Nat} (h : d < 16) : hexDigit d.digitChar = d := by
  revert d
  decide

theorem digitChar_ne_brace {d : Nat} (h : d < 16) : d.digitChar ≠ '}' := by
  revert d
  decide

theorem hexValue_toDigits (n : Nat) : hexValue (Nat.toDigits 16 n) = n := by
  induction n using Nat.strongRecOn with
  | ind n ih =>
    rw [Nat.toDigits_eq_if (by decide)]
    split
    next hlt => simp [hexValue, hexDigit_digitChar hlt]
    next hle =>
      have hdigit := hexDigit_digitChar (Nat.mod_lt n (show 0 < 16 by decide))
      have hrest : hexValue (Nat.toDigits 16 (n / 16)) = n / 16 := ih _ (by omega)
      rw [hexValue, List.foldl_append, ← hexValue, hrest]
      simp only [List.foldl_cons, List.foldl_nil, hdigit]
      omega

theorem ne_brace_of_mem_toDigits (n : Nat) : ∀ c ∈ Nat.toDigits 16 n, c ≠ '}' := by
  induction n using Nat.strongRecOn with
  | ind n ih =>
    rw [Nat.toDigits_eq_if (by decide)]
    split
    next hlt => exact List.forall_mem_singleton.mpr (digitChar_ne_brace hlt)
    next hle =>
      rw [List.forall_mem_append, List.forall_mem_singleton]
      exact ⟨ih _ (by omega), digitChar_ne_brace (Nat.mod_lt n (by decide))⟩

/-! ## Characters -/

/-- The character that is written at the front of a text inside quotes, and what follows it. -/
def readEscape : List Char → Option (Char × List Char)
  | '\\' :: '"' :: rest => some ('"', rest)
  | '\\' :: '\\' :: rest => some ('\\', rest)
  | '\\' :: 't' :: rest => some ('\t', rest)
  | '\\' :: 'n' :: rest => some ('\n', rest)
  | '\\' :: 'r' :: rest => some ('\r', rest)
  | '\\' :: '0' :: rest => some ('\x00', rest)
  | '\\' :: 'u' :: '{' :: rest =>
    some (.ofNat (hexValue (rest.takeWhile (· ≠ '}'))), (rest.dropWhile (· ≠ '}')).tail)
  | c :: rest => some (c, rest)
  | [] => none

theorem readEscape_number (c : Char) (rest : List Char) :
    readEscape ('\\' :: 'u' :: '{' :: (hexNumber c ++ '}' :: rest)) = some (c, rest) := by
  have hdigits : ∀ d ∈ hexNumber c, decide (d ≠ '}') = true :=
    fun d hd => decide_eq_true (ne_brace_of_mem_toDigits _ d hd)
  rw [readEscape, List.takeWhile_append_of_pos hdigits, List.dropWhile_append_of_pos hdigits]
  simp [hexNumber, hexValue_toDigits]

/-- What is written for a character is read back as that character, and no more. -/
theorem readEscape_escape (c : Char) (rest : List Char) :
    readEscape (escape c ++ rest) = some (c, rest) := by
  unfold escape
  split
  iterate 6 rfl
  next hquote hslash _ _ _ _ =>
    split
    · rw [List.append_assoc, List.append_assoc]
      exact readEscape_number c rest
    · show readEscape (c :: rest) = _
      unfold readEscape
      split <;> simp_all

/-- No character is written with a quote in front. -/
theorem head?_escape_append (c : Char) (rest : List Char) :
    (escape c ++ rest).head? ≠ some '"' := by
  unfold escape
  split
  iterate 6 simp
  next hquote _ _ _ _ _ =>
    split
    · simp
    · simpa using hquote

/-! ## Texts -/

/-- Up to the closing quote there is only one way to read what is written. -/
theorem flatMap_escape_append_inj (chars : List Char) :
    ∀ {chars' rest rest' : List Char},
      chars.flatMap escape ++ '"' :: rest = chars'.flatMap escape ++ '"' :: rest' →
        chars = chars' ∧ rest = rest' := by
  induction chars with
  | nil =>
    intro chars' rest rest' h
    cases chars' with
    | nil => exact ⟨rfl, (List.cons.inj h).2⟩
    | cons c' chars' =>
      have hhead := head?_escape_append c' (chars'.flatMap escape ++ '"' :: rest')
      rw [← List.append_assoc, ← List.flatMap_cons, ← h] at hhead
      exact absurd rfl hhead
  | cons c chars ih =>
    intro chars' rest rest' h
    cases chars' with
    | nil =>
      have hhead := head?_escape_append c (chars.flatMap escape ++ '"' :: rest)
      rw [← List.append_assoc, ← List.flatMap_cons, h] at hhead
      exact absurd rfl hhead
    | cons c' chars' =>
      rw [List.flatMap_cons, List.flatMap_cons, List.append_assoc, List.append_assoc] at h
      have hread := congrArg readEscape h
      rw [readEscape_escape, readEscape_escape, Option.some.injEq, Prod.mk.injEq] at hread
      obtain ⟨hrest, hrest'⟩ := ih hread.2
      exact ⟨by rw [hread.1, hrest], hrest'⟩

theorem toList_quote (text : String) :
    (quote text).toList = '"' :: (text.toList.flatMap escape ++ ['"']) := by
  simp [quote]

/-- A quoted text is read back, and what stands behind it is left. -/
theorem quote_append_inj {text text' : String} {rest rest' : List Char}
    (h : (quote text).toList ++ rest = (quote text').toList ++ rest') :
    text = text' ∧ rest = rest' := by
  rw [toList_quote, toList_quote, List.cons_append, List.cons_append, List.append_assoc,
    List.append_assoc] at h
  obtain ⟨hchars, hrest⟩ := flatMap_escape_append_inj _ (List.cons.inj h).2
  exact ⟨String.toList_inj.mp hchars, hrest⟩

end SayLang.Text
