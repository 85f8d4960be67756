import SayLang.Proofs.Ledger

/-!
# Error nodes and diagnostics account for each other

Where an expression is broken the parser records a diagnostic and leaves an error node with the same
message. Later on it may drop the node again: a broken form takes its parts with it. It never makes
up a node, never keeps one twice and never changes their order, so the error nodes of a tree are a
sublist of the diagnostics. And a form that drops error nodes leaves one of its own, so where an
expression was broken there is always an error node left (`Accounted`).

> `errorLedger`: this is a rule by which books may be kept of a parse.
> `error_nodes_accounted`: both halves, of the tree that is parsed from a text.

A missing name, equals sign or closing brace breaks no expression: the declaration is dropped, and
the block ends where the text does.
-/

namespace SayLang

/-! ## What is broken -/

/-- A diagnostic told like an error node: the line, and what is wrong. -/
def Diagnostic.told (found : Diagnostic) : Nat × String := (found.line, found.problem.message)

/-- The line and the message of an error node. -/
def Node.error? : Node → Option (Nat × String)
  | .expression (.error token message) => some (token.line, message)
  | _ => none

/-- The error nodes of a program in source order. -/
def Program.errors (program : Program) : List (Nat × String) := program.nodes.filterMap Node.error?

/-! ## Accounting -/

/-- The errors held before and the diagnostics recorded since then account for the errors held
after: those are among them, in order and none of them twice, and they are gone only if nothing was
held before and no expression was broken since. -/
structure Accounted (before : List (Nat × String)) (recorded : List Diagnostic)
    (after : List (Nat × String)) : Prop where
  /-- Each error comes from one held before or from a diagnostic of its own. -/
  sublist : after.Sublist (before ++ recorded.map Diagnostic.told)
  /-- What is dropped is superseded. -/
  ne_nil : before ≠ [] ∨ (∃ found ∈ recorded, found.problem.breaksExpression = true) → after ≠ []

namespace Accounted

variable {before middle after : List (Nat × String)} {recorded recorded' : List Diagnostic}

theorem refl (before : List (Nat × String)) : Accounted before [] before where
  sublist := List.sublist_append_left before _
  ne_nil := by
    intro h
    rcases h with h | ⟨_, hfound, _⟩
    · exact h
    · exact nomatch hfound

theorem trans (h : Accounted before recorded middle) (h' : Accounted middle recorded' after) :
    Accounted before (recorded ++ recorded') after where
  sublist := by
    rw [List.map_append, ← List.append_assoc]
    exact h'.sublist.trans (h.sublist.append_right _)
  ne_nil := by
    intro hnonempty
    apply h'.ne_nil
    rcases hnonempty with hbefore | ⟨found, hfound, hbreaks⟩
    · exact .inl (h.ne_nil (.inl hbefore))
    rcases List.mem_append.mp hfound with hfound | hfound
    · exact .inl (h.ne_nil (.inr ⟨found, hfound, hbreaks⟩))
    · exact .inr ⟨found, hfound, hbreaks⟩

/-- Errors held on the left stay there. -/
theorem frame (held : List (Nat × String)) (h : Accounted before recorded after) :
    Accounted (held ++ before) recorded (held ++ after) where
  sublist := by
    rw [List.append_assoc]
    exact h.sublist.append_left held
  ne_nil := by
    intro hnonempty hnil
    obtain ⟨hheld, hafter⟩ := List.append_eq_nil_iff.mp hnil
    rw [hheld, List.nil_append] at hnonempty
    exact h.ne_nil hnonempty hafter

/-- The error of a diagnostic takes the place of all that were held. -/
theorem broken (before : List (Nat × String)) (found : Diagnostic) :
    Accounted before [found] [found.told] where
  sublist := List.sublist_append_right _ _
  ne_nil := fun _ => List.cons_ne_nil _ _

/-- A diagnostic that breaks no expression may be recorded without an error. -/
theorem dropped (before : List (Nat × String)) {found : Diagnostic}
    (h : found.problem.breaksExpression = false) : Accounted before [found] before where
  sublist := List.sublist_append_left _ _
  ne_nil := by
    intro hnonempty
    rcases hnonempty with hbefore | ⟨other, hother, hbreaks⟩
    · exact hbefore
    · rw [List.mem_singleton.mp hother, h] at hbreaks
      exact nomatch hbreaks

end Accounted

/-- The errors of a tree as books kept of the parse: nothing is held but errors, and the diagnostics
account for them. -/
def errorLedger : Ledger (Nat × String) where
  broken? token message := some (token.line, message)
  entered? _ := none
  Kept before events after := Accounted before (events.filterMap Event.diagnostic?) after
  refl := .refl
  trans h h' := by
    rw [List.filterMap_append]
    exact h.trans h'
  frame held _ _ _ h := h.frame held
  expression held _ := .refl held
  statement _ _ := .refl []
  broken before _ token problem := .broken before ⟨token.line, problem⟩
  dropped opened _ line problem h := by
    cases opened <;> exact .dropped [] h

theorem item?_errorLedger (node : Node) : errorLedger.item? node = node.error? := by
  cases node with
  | expression e => cases e <;> rfl
  | program _ | statement _ | block _ => rfl

/-- The diagnostics of a text account for the error nodes of its tree. -/
theorem parse_accounted (source : String) :
    Accounted [] (parse source).diagnostics (parse source).program.errors := by
  have hkept := errorLedger.parse_kept source
  rw [funext item?_errorLedger] at hkept
  exact hkept

/-- The error nodes of a tree, with their lines and messages, are among the diagnostics of its text,
in the same order and each of them for itself. Where an expression was broken an error node is left,
and where nothing was recorded there is none. -/
theorem error_nodes_accounted (source : String) :
    (parse source).program.errors.Sublist
        ((parse source).diagnostics.map fun found => (found.line, found.problem.message)) ∧
      (∀ found ∈ (parse source).diagnostics, found.problem.breaksExpression = true →
        (parse source).program.errors ≠ []) ∧
      ((parse source).diagnostics = [] → (parse source).program.errors = []) := by
  have haccounted := parse_accounted source
  refine ⟨haccounted.sublist, fun found hfound hbreaks => ?_, fun hclean => ?_⟩
  · exact haccounted.ne_nil (.inr ⟨found, hfound, hbreaks⟩)
  · have hsublist := haccounted.sublist
    rw [hclean] at hsublist
    exact List.sublist_nil.mp hsublist

/-- A call without its closing parenthesis takes the error node of its argument with it and leaves
its own. -/
theorem error_nodes_of_broken_call :
    let source := "f(1 + , 2"
    ⟨1, .noExpression .comma⟩ ∈ (parse source).diagnostics ∧
      (Problem.noExpression .comma).breaksExpression = true ∧
      (parse source).program.errors = [(1, "Expected next token to be ), got NUMBER instead")] ∧
      (parse source).program.errors ≠ [] ∧
      (parse source).program.errors.Sublist
        ((parse source).diagnostics.map fun found => (found.line, found.problem.message)) := by
  intro source
  obtain ⟨hsublist, hbroken, -⟩ := error_nodes_accounted source
  have hfound : ⟨1, .noExpression .comma⟩ ∈ (parse source).diagnostics := by decide
  exact ⟨hfound, rfl, by decide, hbroken _ hfound rfl, hsublist⟩

end SayLang
