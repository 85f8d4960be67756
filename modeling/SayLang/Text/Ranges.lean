/-!
# Sets of characters as ranges

A property of characters is kept as a table of closed ranges of code points, in ascending order. A
look-up walks along the table and stops at the first range that starts above the code point asked
for.

> `covers_iff`: in an ascending table, the look-up finds exactly the code points that lie in one of
> the ranges.
-/

namespace SayLang.Text

/-- Closed ranges of code points, each by its first and its last one. -/
abbrev Ranges : Type := List (Nat × Nat)

namespace Ranges

/-- Do the ranges ascend, each of them with at least one code point and apart from the next? -/
def ascending : Ranges → Bool
  | [] => true
  | [range] => range.1 ≤ range.2
  | range :: next :: rest => range.1 ≤ range.2 && range.2 < next.1 && ascending (next :: rest)

/-- Is the code point in one of the ranges? -/
def covers : Ranges → Nat → Bool
  | [], _ => false
  | range :: rest, n => range.1 ≤ n && (n ≤ range.2 || covers rest n)

/-- What follows the first range of an ascending table ascends as well. -/
theorem ascending_tail {range : Nat × Nat} {rest : Ranges} (h : ascending (range :: rest) = true) :
    ascending rest = true := by
  cases rest with
  | nil => rfl
  | cons next rest =>
    simp only [ascending, Bool.and_eq_true] at h
    exact h.2

/-- The first range of an ascending table starts below the others. -/
theorem first_le_of_mem {range : Nat × Nat} {rest : Ranges} :
    ascending (range :: rest) = true → ∀ other ∈ rest, range.1 ≤ other.1 := by
  induction rest generalizing range with
  | nil => intro _ other hmem; cases hmem
  | cons next rest ih =>
    intro h other hmem
    have hnext := ih (ascending_tail h)
    simp only [ascending, Bool.and_eq_true, decide_eq_true_eq] at h
    rcases List.mem_cons.mp hmem with rfl | hrest
    · omega
    · have hle := hnext other hrest
      omega

/-- The look-up finds exactly what lies in one of the ranges. -/
theorem covers_iff {ranges : Ranges} (h : ascending ranges = true) (n : Nat) :
    covers ranges n = true ↔ ∃ range ∈ ranges, range.1 ≤ n ∧ n ≤ range.2 := by
  induction ranges with
  | nil => simp [covers]
  | cons range rest ih =>
    have hbelow := first_le_of_mem h
    simp only [covers, Bool.and_eq_true, Bool.or_eq_true, decide_eq_true_eq,
      ih (ascending_tail h), List.mem_cons]
    constructor
    · rintro ⟨hfirst, hlast | ⟨other, hmem, hin⟩⟩
      · exact ⟨range, Or.inl rfl, hfirst, hlast⟩
      · exact ⟨other, Or.inr hmem, hin⟩
    · rintro ⟨other, rfl | hmem, hin⟩
      · exact ⟨hin.1, Or.inl hin.2⟩
      · have hle := hbelow other hmem
        exact ⟨by omega, Or.inr ⟨other, hmem, hin⟩⟩

end Ranges

end SayLang.Text
