import SayLang.Proofs.Derivable
import SayLang.Proofs.Following

/-!
# The parser accepts exactly its grammar

> `diagnostics_eq_nil_iff_program`: nothing is found wrong exactly in the programs of the grammar,
> in a source text as in a list of tokens.
> `parseFrom_of_readsProgram`: what has a reading is parsed as that.

The parser is greedy and looks one token ahead, and the grammar is ambiguous. The recognizer stands
between them: the parser follows it token by token, and it accepts whatever the grammar derives.
-/

namespace SayLang

open Recognizer

/-- What is accepted goes up to the end of input. -/
theorem upToEof_of_accepts {tokens : List Token} :
    ∀ {goals : List Goal}, Accepts goals tokens → Sound goals → UpToEof tokens := by
  induction tokens with
  | nil =>
    intro goals h hs
    cases h
    exact hs.elim
  | cons token tokens ih =>
    intro goals h hs
    obtain ⟨behind, hstep, hrest⟩ := accepts_cons.mp h
    by_cases heof : token.kind = .eof
    · rw [step_eof heof hstep hs] at hrest
      cases tokens with
      | nil => exact .last heof
      | cons next tokens => cases hrest
    · exact .cons heof (ih hrest (step_sound heof hstep hs))

/-- A program of the grammar has the end of input last, and nowhere before. -/
theorem Grammar.Program.upToEof {tokens : List Token} (h : Grammar.Program tokens) :
    UpToEof tokens :=
  upToEof_of_accepts (program_iff_accepts.mp h) rfl

/-- From a cursor at the start of a list of tokens, nothing is found wrong exactly when the list is
a program of the grammar. -/
theorem diagnostics_parseFrom_eq_nil_iff {κ : Type} [Cursor κ] [LawfulCursor κ]
    {tokens : List Token} {cursor : κ} (h : Cursor.Starts cursor tokens) :
    (parseFrom cursor).diagnostics = [] ↔ Grammar.Program tokens :=
  (diagnostics_eq_nil_iff_accepts h).trans program_iff_accepts.symm

/-- What has a reading is parsed as that, and nothing is found wrong in it. -/
theorem parseFrom_of_readsProgram {κ : Type} [Cursor κ] [LawfulCursor κ] {tokens : List Token}
    {program : Program} {cursor : κ} (h : Cursor.Starts cursor tokens)
    (hreads : ReadsProgram tokens program) :
    (parseFrom cursor).diagnostics = [] ∧ (parseFrom cursor).program = program := by
  have hclean := (diagnostics_parseFrom_eq_nil_iff h).mpr hreads.derivation
  exact ⟨hclean, (readsProgram_of_diagnostics_eq_nil h hclean).unique hreads⟩

/-- Nothing is found wrong exactly in the programs of the grammar. This holds for every source text,
and for every list of tokens that ends with the end of input. -/
theorem diagnostics_eq_nil_iff_program :
    (∀ source : String,
      (parse source).diagnostics = [] ↔ Grammar.Program (tokenize source)) ∧
    (∀ tokens : List Token, UpToEof tokens →
      ((parseTokens tokens).diagnostics = [] ↔ Grammar.Program tokens)) := by
  constructor
  · intro source
    exact diagnostics_parseFrom_eq_nil_iff (Window.ofSource_starts source)
  · intro tokens h
    exact diagnostics_parseFrom_eq_nil_iff (Strip.ofTokens_starts h)

/-- Such a list is `x - y`, which the grammar derives as one statement and as two. -/
theorem program_difference :
    UpToEof [⟨.identifier, "x", 1⟩, ⟨.minus, "-", 1⟩, ⟨.identifier, "y", 1⟩, ⟨.eof, "", 1⟩] ∧
      Grammar.Program
        [⟨.identifier, "x", 1⟩, ⟨.minus, "-", 1⟩, ⟨.identifier, "y", 1⟩, ⟨.eof, "", 1⟩] := by
  have h : UpToEof
      [⟨.identifier, "x", 1⟩, ⟨.minus, "-", 1⟩, ⟨.identifier, "y", 1⟩, ⟨.eof, "", 1⟩] :=
    .cons (by decide) (.cons (by decide) (.cons (by decide) (.last rfl)))
  exact ⟨h, (diagnostics_eq_nil_iff_program.2 _ h).mp (by decide)⟩

end SayLang
