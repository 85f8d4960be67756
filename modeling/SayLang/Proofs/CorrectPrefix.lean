import Mathlib.Order.Bounds.Defs
import SayLang.Proofs.Following
import SayLang.Proofs.Spelling

/-!
# The first diagnostic is about the first token that cannot be right

Up to the first diagnostic the parser has read the beginning of some text that is fine, and the
token that the diagnostic is about makes it the beginning of none.

> `first_diagnostic_isLeast`: the first diagnostic is about the last token of the shortest beginning
> that no text without diagnostics has.

So nothing is reported too early, and nothing wrong is read past. A token that the recognizer reads
leaves goals behind, and some tokens meet them (`accepts_finish`): written out behind what was read
they make a text without diagnostics. A token that the recognizer refuses is refused in every text
that begins in the same way.
-/

namespace SayLang

open Recognizer

/-- Some text without diagnostics begins with tokens of these kinds and literals. -/
def Viable (spellings : List (Kind × String)) : Prop :=
  ∃ source, (parse source).diagnostics = [] ∧ spellings <+: (tokenize source).map Token.spelling

/-- What the recognizer reads is the beginning of a text without diagnostics. -/
theorem viable_of_run {tokens : List Token} (halone : ∀ token ∈ tokens, token.StandsAlone)
    {goals : List Goal} (hrun : run [.program] tokens = some goals) :
    Viable (tokens.map Token.spelling) := by
  have hsound : Sound goals :=
    run_sound (fun token htoken => (halone token htoken).kind_ne_eof) hrun rfl
  obtain ⟨body, hfinish, hbody⟩ := finish_eq_append hsound
  have hall : ∀ token ∈ tokens ++ body, token.StandsAlone := by
    intro token htoken
    rcases List.mem_append.mp htoken with hmem | hmem
    · exact halone token hmem
    · obtain ⟨kind, hkind, rfl⟩ := hbody token hmem
      exact Kind.sample_standsAlone hkind
  -- the end of input is not written out, but comes of itself behind the last token
  have hspelling : (tokenize (String.ofList (writeOut (tokens ++ body)))).map Token.spelling =
      (tokens ++ finish goals).map Token.spelling := by
    rw [tokenize_write hall, hfinish]
    simp only [List.map_append, List.append_assoc]
    rfl
  refine ⟨String.ofList (writeOut (tokens ++ body)), ?_, ?_⟩
  · refine (diagnostics_eq_nil_iff_accepts (Window.ofSource_starts _)).mpr ?_
    rw [Accepts, run_congr hspelling, run_append, hrun]
    exact accepts_finish hsound
  · rw [hspelling, List.map_append]
    exact List.prefix_append ..

/-- What the recognizer does not read to its end is the beginning of no text without diagnostics. -/
theorem not_viable_of_run {tokens : List Token} (hrun : run [.program] tokens = none) :
    ¬ Viable (tokens.map Token.spelling) := by
  intro hviable
  obtain ⟨source, hclean, hprefix⟩ := hviable
  have haccepts := (diagnostics_eq_nil_iff_accepts (Window.ofSource_starts source)).mp hclean
  have hspelling : tokens.map Token.spelling =
      ((tokenize source).take tokens.length).map Token.spelling := by
    have htake := List.prefix_iff_eq_take.mp hprefix
    rw [List.length_map] at htake
    rw [htake, List.map_take]
  rw [Accepts, ← List.take_append_drop tokens.length (tokenize source), run_append,
    ← run_congr hspelling, hrun] at haccepts
  cases haccepts

/-- When a text has diagnostics, there is a shortest beginning of its tokens that no text without
diagnostics has, and the first diagnostic is about the last token of that. -/
theorem first_diagnostic_isLeast (source : String) (h : (parse source).diagnostics ≠ []) :
    ∃ position token found,
      IsLeast
        {k | k < (tokenize source).length ∧
          ¬ Viable (((tokenize source).take (k + 1)).map Token.spelling)} position ∧
      (tokenize source)[position]? = some token ∧
      (parse source).diagnostics.head? = some found ∧ found.IsAbout token := by
  obtain ⟨position, found, hhead, hrefused⟩ :=
    refusedAt_of_diagnostics_ne_nil (Window.ofSource_starts source) h
  have hrefused' := hrefused
  obtain ⟨goals, token, hrun, hget, -, habout⟩ := hrefused'
  have hlt := (List.getElem?_eq_some_iff.mp hget).1
  refine ⟨position, token, found, ⟨⟨hlt, not_viable_of_run hrefused.run_take_succ⟩, ?_⟩, hget,
    hhead, habout⟩
  intro k hk
  obtain ⟨hklt, hnot⟩ := hk
  by_contra hlater
  -- an earlier beginning is read, so it goes on
  have hread : ∃ before, run [.program] ((tokenize source).take (k + 1)) = some before := by
    rw [← List.take_append_drop (k + 1) ((tokenize source).take position), List.take_take,
      Nat.min_eq_left (by omega), run_append] at hrun
    obtain ⟨before, hbefore, -⟩ := Option.bind_eq_some_iff.mp hrun
    exact ⟨before, hbefore⟩
  obtain ⟨before, hbefore⟩ := hread
  have halone : ∀ token ∈ (tokenize source).take (k + 1), token.StandsAlone := by
    intro token htoken
    have hne := (tokenize_upToEof source).ne_eof_of_mem_take (by omega) token htoken
    exact Lexer.tokens_standAlone _ token (List.mem_of_mem_take htoken) hne
  exact hnot (viable_of_run halone hbefore)

/-- Such a text is a declaration with a number in the place of its name. -/
theorem first_diagnostic_of_nameless_declaration :
    (parse "say 5").diagnostics ≠ [] ∧
      ∃ position token found,
        IsLeast
          {k | k < (tokenize "say 5").length ∧
            ¬ Viable (((tokenize "say 5").take (k + 1)).map Token.spelling)} position ∧
        (tokenize "say 5")[position]? = some token ∧
        (parse "say 5").diagnostics.head? = some found ∧ found.IsAbout token := by
  have h : (parse "say 5").diagnostics ≠ [] := by decide
  exact ⟨h, first_diagnostic_isLeast "say 5" h⟩

end SayLang
