import SayLang.Proofs.Quoting

/-!
# S-expressions

An S-expression is an atom, a quoted text, or a list of S-expressions in parentheses or in braces,
a space between neighbours. Written one behind the other they are told apart again: an atom ends
where a character stands that is none of its own, a quoted text at its closing quote, and a list at
the bracket that closes it.

> `Sexp.chars_append_inj`: one S-expression, whatever may stand behind it.
> `Sexp.joined_inj`: S-expressions with a separator between neighbours.
-/

namespace SayLang

/-- What a list stands in. -/
inductive Bracket where
  /-- Parentheses. -/
  | round
  /-- Braces. -/
  | curly
deriving DecidableEq

/-- The bracket that opens a list. -/
def Bracket.opening : Bracket → Char
  | round => '('
  | curly => '{'

/-- The bracket that closes it. -/
def Bracket.closing : Bracket → Char
  | round => ')'
  | curly => '}'

theorem Bracket.opening_inj {bracket bracket' : Bracket} (h : bracket.opening = bracket'.opening) :
    bracket = bracket' := by
  revert h
  cases bracket <;> cases bracket' <;> decide

/-- An S-expression. -/
inductive Sexp where
  /-- A word, a number or an operator. -/
  | atom (text : String)
  /-- A text in quotes. -/
  | quoted (text : String)
  /-- A list in brackets. -/
  | list (bracket : Bracket) (items : List Sexp)

namespace Sexp

mutual

/-- The characters that an S-expression is written with. -/
def chars : Sexp → List Char
  | atom text => text.toList
  | quoted text => (Text.quote text).toList
  | list bracket items => bracket.opening :: (joined ' ' items ++ [bracket.closing])

/-- S-expressions one behind the other, the separator between neighbours. -/
def joined (separator : Char) : List Sexp → List Char
  | [] => []
  | item :: items => item.chars ++ trailing separator items

/-- S-expressions one behind the other, the separator in front of each. -/
def trailing (separator : Char) : List Sexp → List Char
  | [] => []
  | item :: items => separator :: (item.chars ++ trailing separator items)

end

theorem joined_cons (separator : Char) (item : Sexp) (items : List Sexp) :
    joined separator (item :: items) = item.chars ++ trailing separator items := by
  rw [joined]

/-- What joins them is the separator between the texts. -/
theorem joined_eq_intercalate (separator : Char) (items : List Sexp) :
    joined separator items = [separator].intercalate (items.map chars) := by
  cases items with
  | nil => rw [joined]; rfl
  | cons item items =>
    rw [joined]
    induction items generalizing item with
    | nil => simp [trailing]
    | cons next items ih =>
      rw [trailing, ih]
      simp only [List.map_cons, List.intercalate_cons_cons, List.append_assoc,
        List.singleton_append]

/-! ## What may stand in an atom and behind it -/

/-- The characters that atoms are made of. -/
def isAtomChar (c : Char) : Bool := c ∉ [' ', '\n', '(', ')', '{', '}', '"']

/-- What stands behind an S-expression: a separator, a closing bracket, or nothing. -/
def Closes (rest : List Char) : Prop := ∀ c ∈ rest.head?, c ∈ [' ', '\n', ')', '}']

mutual

/-- All atoms in the S-expression are made of characters of atoms, and are not empty. -/
def Solid : Sexp → Prop
  | atom text => text ≠ "" ∧ ∀ c ∈ text.toList, isAtomChar c = true
  | quoted _ => True
  | list _ items => SolidEach items

/-- That, for each S-expression of a list. -/
def SolidEach : List Sexp → Prop
  | [] => True
  | item :: items => item.Solid ∧ SolidEach items

end

/-- The bracket or quote that the S-expression opens with, unless it is an atom. -/
def opener? : Sexp → Option Char
  | atom _ => none
  | quoted _ => some '"'
  | list bracket _ => some bracket.opening

section inj

variable {s s' : Sexp} {items items' : List Sexp} {rest rest' : List Char} {separator : Char}

/-- The first character tells what is opened. -/
theorem exists_cons (h : s.Solid) :
    ∃ c tail, s.chars = c :: tail ∧ s.opener? = (if isAtomChar c then none else some c) ∧
      c ∉ [' ', '\n', ')', '}'] := by
  cases s with
  | atom text =>
    rw [Solid] at h
    obtain ⟨hne, hatom⟩ := h
    obtain ⟨c, tail, htext⟩ := List.exists_cons_of_ne_nil
      (show text.toList ≠ [] from fun hnil => hne (String.toList_eq_nil_iff.mp hnil))
    have hc : isAtomChar c = true := hatom c (by rw [htext]; exact List.mem_cons_self)
    refine ⟨c, tail, by rw [chars, htext], by rw [opener?, if_pos hc], ?_⟩
    simp only [isAtomChar, List.mem_cons, decide_eq_true_eq] at hc
    simp_all
  | quoted text => exact ⟨'"', _, by rw [chars, Text.toList_quote], rfl, by decide⟩
  | list bracket items =>
    refine ⟨bracket.opening, _, by rw [chars], ?_, ?_⟩ <;> cases bracket
    · rfl
    · rfl
    · decide
    · decide

/-- No S-expression starts with what stands behind one. -/
theorem not_closes (h : s.Solid) : ¬ Closes (s.chars ++ rest) := by
  obtain ⟨c, tail, hchars, -, hc⟩ := exists_cons h
  rw [hchars]
  exact fun hcloses => hc (hcloses c rfl)

/-- S-expressions that are written alike open with the same bracket. -/
theorem opener?_eq (hs : s.Solid) (hs' : s'.Solid) (h : s.chars ++ rest = s'.chars ++ rest') :
    s.opener? = s'.opener? := by
  obtain ⟨c, tail, hchars, hopener, -⟩ := exists_cons hs
  obtain ⟨c', tail', hchars', hopener', -⟩ := exists_cons hs'
  rw [hchars, hchars'] at h
  rw [hopener, hopener', (List.cons.inj h).1]

/-- An atom ends where something stands that is not of its characters. -/
theorem atom_append_inj {text text' : List Char} (htext : ∀ c ∈ text, isAtomChar c = true)
    (htext' : ∀ c ∈ text', isAtomChar c = true) (hrest : Closes rest) (hrest' : Closes rest')
    (h : text ++ rest = text' ++ rest') : text = text' ∧ rest = rest' := by
  have htake {text rest : List Char} (htext : ∀ c ∈ text, isAtomChar c = true)
      (hrest : Closes rest) : (text ++ rest).takeWhile isAtomChar = text := by
    rw [List.takeWhile_append_of_pos htext]
    cases rest with
    | nil => simp
    | cons c rest =>
      have hc : isAtomChar c = false := by
        have hmem := hrest c rfl
        simp only [List.mem_cons, List.not_mem_nil, or_false] at hmem
        rcases hmem with rfl | rfl | rfl | rfl <;> decide
      rw [List.takeWhile_cons_of_neg (by rw [hc]; exact Bool.false_ne_true), List.append_nil]
  have heq : text = text' := by
    rw [← htake htext hrest, h, htake htext' hrest']
  subst heq
  exact ⟨rfl, List.append_cancel_left h⟩

/-- What stands behind a list with a separator: something else. -/
structure Ends (separator : Char) (rest : List Char) : Prop where
  /-- It stands behind the last S-expression. -/
  closes : Closes rest
  /-- It does not go on with the list. -/
  ne : rest.head? ≠ some separator

theorem Ends.trailing (h : Ends separator rest) (hseparator : separator = ' ' ∨ separator = '\n')
    (items : List Sexp) : Closes (trailing separator items ++ rest) := by
  cases items with
  | nil =>
    rw [Sexp.trailing]
    exact h.closes
  | cons item items =>
    rw [Sexp.trailing]
    intro c hc
    obtain rfl := Option.some.inj hc
    rcases hseparator with rfl | rfl <;> decide

/-- The bracket that closes a list ends it. -/
theorem ends_closing (bracket : Bracket) (rest : List Char) :
    Ends ' ' (bracket.closing :: rest) := by
  refine ⟨fun c hc => ?_, ?_⟩
  · obtain rfl := Option.some.inj hc
    cases bracket <;> decide
  · cases bracket <;> simp [Bracket.closing]

end inj

mutual

/-- An S-expression is told apart from what stands behind it, and there is only one that is written
like it. -/
theorem chars_append_inj : ∀ {s s' : Sexp} {rest rest' : List Char}, s.Solid → s'.Solid →
    Closes rest → Closes rest' → s.chars ++ rest = s'.chars ++ rest' → s = s' ∧ rest = rest'
  | atom text, s', rest, rest', hs, hs', hrest, hrest', h => by
    have hopener := opener?_eq hs hs' h
    cases s' with
    | atom text' =>
      rw [Solid] at hs hs'
      rw [chars, chars] at h
      obtain ⟨htext, hrest⟩ := atom_append_inj hs.2 hs'.2 hrest hrest' h
      exact ⟨by rw [String.toList_inj.mp htext], hrest⟩
    | quoted _ | list _ _ => cases hopener
  | quoted text, s', rest, rest', hs, hs', hrest, hrest', h => by
    have hopener := opener?_eq hs hs' h
    cases s' with
    | quoted text' =>
      rw [chars, chars] at h
      obtain ⟨rfl, hrest⟩ := Text.quote_append_inj h
      exact ⟨rfl, hrest⟩
    | atom _ => cases hopener
    | list bracket _ => exact absurd (Option.some.inj hopener) (by cases bracket <;> decide)
  | list bracket items, s', rest, rest', hs, hs', hrest, hrest', h => by
    have hopener := opener?_eq hs hs' h
    cases s' with
    | list bracket' items' =>
      obtain rfl := Bracket.opening_inj (Option.some.inj hopener)
      rw [Solid] at hs hs'
      rw [chars, chars, List.cons_append, List.cons_append, List.append_assoc,
        List.append_assoc] at h
      obtain ⟨hitems, hrest⟩ := joined_append_inj (.inl rfl) hs hs' (ends_closing bracket rest)
        (ends_closing bracket rest') (List.cons.inj h).2
      exact ⟨by rw [hitems], (List.cons.inj hrest).2⟩
    | atom _ => cases hopener
    | quoted _ => exact absurd (Option.some.inj hopener) (by cases bracket <;> decide)

theorem joined_append_inj : ∀ {items items' : List Sexp} {separator : Char}
    {rest rest' : List Char}, separator = ' ' ∨ separator = '\n' → SolidEach items →
      SolidEach items' → Ends separator rest → Ends separator rest' →
      joined separator items ++ rest = joined separator items' ++ rest' →
        items = items' ∧ rest = rest'
  | [], items', separator, rest, rest', _, hitems, hitems', hrest, hrest', h => by
    cases items' with
    | nil =>
      rw [joined] at h
      exact ⟨rfl, h⟩
    | cons item' items' =>
      rw [SolidEach] at hitems'
      rw [joined, joined, List.nil_append, List.append_assoc] at h
      exact absurd (h ▸ hrest.closes) (not_closes hitems'.1)
  | item :: items, items', separator, rest, rest', hseparator, hitems, hitems', hrest, hrest',
      h => by
    rw [SolidEach] at hitems
    cases items' with
    | nil =>
      rw [joined, joined, List.nil_append, List.append_assoc] at h
      exact absurd (h ▸ hrest'.closes) (not_closes hitems.1)
    | cons item' items' =>
      rw [SolidEach] at hitems'
      rw [joined, joined, List.append_assoc, List.append_assoc] at h
      obtain ⟨hitem, htrailing⟩ := chars_append_inj hitems.1 hitems'.1
        (hrest.trailing hseparator items) (hrest'.trailing hseparator items') h
      obtain ⟨hrest, hrest'⟩ := trailing_append_inj hseparator hitems.2 hitems'.2 hrest hrest'
        htrailing
      exact ⟨by rw [hitem, hrest], hrest'⟩

theorem trailing_append_inj : ∀ {items items' : List Sexp} {separator : Char}
    {rest rest' : List Char}, separator = ' ' ∨ separator = '\n' → SolidEach items →
      SolidEach items' → Ends separator rest → Ends separator rest' →
      trailing separator items ++ rest = trailing separator items' ++ rest' →
        items = items' ∧ rest = rest'
  | [], items', separator, rest, rest', _, hitems, hitems', hrest, hrest', h => by
    cases items' with
    | nil =>
      rw [trailing] at h
      exact ⟨rfl, h⟩
    | cons item' items' =>
      rw [trailing, trailing, List.nil_append] at h
      exact absurd (by rw [h]; rfl) hrest.ne
  | item :: items, items', separator, rest, rest', hseparator, hitems, hitems', hrest, hrest',
      h => by
    rw [SolidEach] at hitems
    cases items' with
    | nil =>
      rw [trailing, trailing, List.nil_append] at h
      exact absurd (by rw [← h]; rfl) hrest'.ne
    | cons item' items' =>
      rw [SolidEach] at hitems'
      rw [trailing, trailing, List.cons_append, List.cons_append, List.append_assoc,
        List.append_assoc] at h
      obtain ⟨hitem, htrailing⟩ := chars_append_inj hitems.1 hitems'.1
        (hrest.trailing hseparator items) (hrest'.trailing hseparator items') (List.cons.inj h).2
      obtain ⟨hrest, hrest'⟩ := trailing_append_inj hseparator hitems.2 hitems'.2 hrest hrest'
        htrailing
      exact ⟨by rw [hitem, hrest], hrest'⟩

end

/-- Lists that are written alike are the same. -/
theorem joined_inj {items items' : List Sexp} {separator : Char}
    (hseparator : separator = ' ' ∨ separator = '\n') (hitems : SolidEach items)
    (hitems' : SolidEach items') (h : joined separator items = joined separator items') :
    items = items' := by
  have hends : Ends separator [] := ⟨by simp [Closes], by simp⟩
  exact (joined_append_inj hseparator hitems hitems' hends hends (by rw [h])).1

end Sexp

end SayLang
