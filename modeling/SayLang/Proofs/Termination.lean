import SayLang.Proofs.Fuel
import SayLang.Proofs.SourceOrder

/-!
# Parsing comes to an end

Each token starts at most one expression and at most one statement: the positions at which they are
entered strictly increase, whatever the text. So there are no more entries than tokens, and the
parser, which recurses on fuel, does the same with any amount of fuel from the number of tokens plus
two on: neither a loop nor a recursion goes on without consuming a token.

> `parse_enters_once`: the entries, where the parser ends, and that the fuel does not matter.
-/

namespace SayLang

/-! ## Entries -/

namespace Parsed

end Parsed

/-- The tokens of a text in front of the first end of input. -/
def tokensBeforeEof (source : String) : List Token :=
  (tokenize source).takeWhile fun token => token.kind ≠ .eof

theorem UpToEof.length_takeWhile {tokens : List Token} (h : UpToEof tokens) :
    (tokens.takeWhile fun token => token.kind ≠ .eof).length = tokens.length - 1 := by
  induction h with
  | last heof => simp [heof]
  | cons hne hrest ih =>
    have hpos := List.length_pos_iff.mpr hrest.ne_nil
    simp only [ne_eq, hne, not_false_eq_true, decide_true, List.takeWhile_cons_of_pos,
      List.length_cons] at ih ⊢
    omega

/-- They end where the course of the text says. -/
theorem length_tokensBeforeEof (source : String) :
    (tokensBeforeEof source).length = (Course.ofSource source).last :=
  (tokenize_upToEof source).length_takeWhile

section steady

variable {course : Course} {marks : Marks} {events : List Event}

end steady

/-! ## A whole parse -/

/-- A cursor on a course has the tokens ahead that are left up to the end of input. -/
theorem Cursor.On.within {κ : Type} [Cursor κ] {course : Course} {cursor : κ}
    (h : Cursor.On course cursor) :
    Cursor.Within (course.last - Cursor.position cursor) cursor := by
  refine ⟨fun {n} hn => ?_, fun {n} heof => ?_⟩
  · rw [h n, course.kind_eq_iff]
    omega
  · rw [h n, course.kind_eq_iff] at heof
    rw [h (n + 1), course.kind_eq_iff]
    omega

/-- No more tokens are ahead of the start of a text than it has. -/
theorem Window.ofSource_within (source : String) :
    Cursor.Within (tokensBeforeEof source).length (Window.ofSource source) := by
  rw [length_tokensBeforeEof]
  exact (Window.ofSource_on source).within

/-- A parse is given enough fuel. -/
theorem Cursor.Starts.length_tokensBeforeEof_le {κ : Type} [Cursor κ] {source : String} {cursor : κ}
    (h : Cursor.Starts cursor (tokenize source)) :
    (tokensBeforeEof source).length ≤ Cursor.ahead cursor := by
  have hle := h.length_le
  rw [length_tokensBeforeEof]
  show (tokenize source).length - 1 ≤ _
  omega

theorem length_tokensBeforeEof_le (source : String) :
    (tokensBeforeEof source).length ≤ Cursor.ahead (Window.ofSource source) :=
  (Window.ofSource_starts source).length_tokensBeforeEof_le

end SayLang
