import SayLang.Proofs.Delivery
import SayLang.Proofs.Formation
import SayLang.Run

/-!
# Where errors come from

An error value says why it is one. The reason is a node without a rule, a division by zero, a result
out of range, or something that was found wrong with the text, and then it was recorded as a
diagnostic (`Origin`).

> `error_origin`: every error of a parsed tree has one of these origins. Of a program that is run it
> is none of the text, and a file fails with the errors of the run of its text.

Operators and conditions take an error like any other operand and do not hand it on, so the
recursion goes through branches and statements alone.
-/

namespace SayLang

/-- The messages of error values, by where they come from. -/
inductive Origin (recorded : Diagnostic → Prop) : String → Prop where
  /-- A node has no rule. -/
  | unsupported : Origin recorded "Error encountered!"
  /-- A divisor is zero. -/
  | divisionByZero : Origin recorded "division by zero"
  /-- The exact result of an operator between integers is out of range. -/
  | overflow {kind : Kind} {left right : Integer} {n : Int} :
      kind.exact? left.val right.val = some n → ¬ Integer.InRange n →
      Origin recorded ("integer overflow: " ++ left.text ++ " " ++ kind.text ++ " " ++ right.text)
  /-- The opposite of an integer is out of range. -/
  | negationOverflow {operand : Integer} :
      ¬ Integer.InRange (-operand.val) → Origin recorded ("integer overflow: -" ++ operand.text)
  /-- A diagnostic was recorded. -/
  | diagnostic {found : Diagnostic} : recorded found → Origin recorded found.problem.message

/-! ## Values -/

namespace Value

theorem ofExact_eq_error {fault : Fault} {n : Int} {m : String}
    (h : ofExact fault n = error m) : ¬ Integer.InRange n ∧ fault.message = m := by
  unfold ofExact at h
  split at h
  next => cases h
  next hn => exact ⟨hn, by cases h; rfl⟩

/-- An error that statements amount to is that of one of them. -/
theorem mem_of_conclude_eq_error {m : String} : ∀ {values : List Value} {before : Value},
    before.isError = false → conclude before values = error m → error m ∈ values
  | [], before, hbefore, h => by
    rw [conclude_nil] at h
    rw [h] at hbefore
    exact nomatch hbefore
  | value :: values, before, _, h => by
    rw [conclude_cons] at h
    cases hvalue : value.isError with
    | true =>
      rw [hvalue, if_pos rfl] at h
      rw [h]
      exact List.mem_cons_self
    | false =>
      rw [hvalue, if_neg Bool.false_ne_true] at h
      exact List.mem_cons_of_mem _ (mem_of_conclude_eq_error hvalue h)

variable {recorded : Diagnostic → Prop} {operator : Token} {m : String}

theorem unary_origin {operand : Value} (h : unary operator operand = error m) :
    Origin recorded m := by
  unfold unary at h
  split at h
  next => cases h
  next n _ =>
    obtain ⟨hrange, rfl⟩ := ofExact_eq_error h
    exact .negationOverflow hrange
  next => cases h

theorem arithmetic_origin {left right : Integer} (hspelled : operator.literal = operator.kind.text)
    (h : arithmetic operator left right = error m) : Origin recorded m := by
  unfold arithmetic at h
  by_cases hzero : operator.kind = .slash ∧ right.val = 0
  · rw [if_pos hzero] at h
    rw [← Value.error.inj h]
    exact .divisionByZero
  rw [if_neg hzero] at h
  cases hexact : operator.kind.exact? left.val right.val with
  | some n =>
    rw [hexact] at h
    obtain ⟨hrange, hmessage⟩ := ofExact_eq_error h
    rw [← hmessage, hspelled]
    exact .overflow hexact hrange
  | none =>
    rw [hexact] at h
    -- a comparison answers a truth value, and anything else null
    cases hcompared : operator.kind.compared? left.val right.val with
    | none => rw [hcompared] at h; exact nomatch h
    | some b => rw [hcompared] at h; exact nomatch h

theorem binary_origin {left right : Value} (hspelled : operator.literal = operator.kind.text)
    (h : binary operator left right = error m) : Origin recorded m := by
  unfold binary at h
  split at h
  next => exact arithmetic_origin hspelled h
  next =>
    split at h
    next => cases h
    next => cases h
    next => cases h

end Value

/-! ## Trees -/

section trees

variable {recorded : Diagnostic → Prop} {m : String}

mutual

theorem Expression.origin : ∀ e : Expression, e.Formed recorded → e.meaning = .error m →
    Origin recorded m
  | .number _ _, _, h => nomatch h
  | .boolean _ _, _, h => nomatch h
  | .identifier _, _, h => by cases h; exact .unsupported
  | .function _ _ _, _, h => by cases h; exact .unsupported
  | .call _ _ _, _, h => by cases h; exact .unsupported
  | .error _ _, hformed, h => by
    cases h
    rw [Expression.formed_error] at hformed
    obtain ⟨found, hfound, -, hmessage⟩ := hformed
    rw [← hmessage]
    exact .diagnostic hfound
  | .unary _ _, _, h => Value.unary_origin h
  | .binary _ _ _, hformed, h => by
    rw [Expression.formed_binary] at hformed
    exact Value.binary_origin hformed.1.2 h
  | .ifThen _ _ consequence, hformed, h => by
    rw [Expression.formed_ifThen] at hformed
    rw [Expression.meaning] at h
    split at h
    · exact consequence.origin hformed.2.2 h
    · cases h
  | .ifElse _ _ consequence alternative, hformed, h => by
    rw [Expression.formed_ifElse] at hformed
    rw [Expression.meaning] at h
    split at h
    · exact consequence.origin hformed.2.2.1 h
    · exact alternative.origin hformed.2.2.2 h

theorem Statement.origin : ∀ s : Statement, s.Formed recorded → s.meaning = .error m →
    Origin recorded m
  | .expression _ value, hformed, h => by
    rw [Statement.formed_expression] at hformed
    exact value.origin hformed.2 h
  | .block body, hformed, h => by
    rw [Statement.formed_block] at hformed
    exact body.origin hformed.2 h
  | .say _ _ _, _, h => by cases h; exact .unsupported
  | .bareReturn _, _, h => by cases h; exact .unsupported
  | .returnOf _ _, _, h => by cases h; exact .unsupported

theorem Statement.originEach : ∀ ss : List Statement, Statement.FormedEach recorded ss →
    .error m ∈ Statement.meaningOfEach ss → Origin recorded m
  | [], _, h => nomatch h
  | statement :: rest, hformed, h => by
    rw [Statement.formedEach_cons] at hformed
    rw [Statement.meaningOfEach, List.mem_cons] at h
    rcases h with h | h
    · exact statement.origin hformed.1 h.symm
    · exact Statement.originEach rest hformed.2 h

theorem Block.origin : ∀ b : Block, b.Formed recorded → b.meaning = .error m → Origin recorded m
  | .mk _ statements, hformed, h => by
    rw [Block.formed_mk] at hformed
    exact Statement.originEach statements hformed.2 (Value.mem_of_conclude_eq_error rfl h)

end

end trees

/-- An error that a parsed tree evaluates to has its origin. -/
theorem origin_of_value_evaluate {source : String} {supply : Supply} {m : String}
    (h : ((parse source).program.evaluate.run supply).value.value = .error m) :
    Origin (· ∈ (parse source).diagnostics) m := by
  rw [Program.evaluate_value] at h
  have hformed := parse_formed source
  rw [Program.allFormed_nodes] at hformed
  exact Statement.originEach _ hformed (Value.mem_of_conclude_eq_error rfl h)

/-! ## Wordings -/

-- The second letter tells a problem from a fault.

theorem Problem.getElem?_message (problem : Problem) :
    problem.message.toList[1]? = some 'o' ∨ problem.message.toList[1]? = some 'x' := by
  cases problem with
  | noExpression kind =>
    left
    change ("No prefix parse function for " ++ kind.text).toList[1]? = _
    rw [String.toList_append]
    rfl
  | unexpected expected found =>
    right
    change ("Expected next token to be " ++ expected.text ++ ", got " ++ found.text ++
      " instead").toList[1]? = _
    simp only [String.toList_append]
    rfl
  | notAnInteger literal =>
    left
    change ("Could not parse " ++ literal ++ " as integer").toList[1]? = _
    simp only [String.toList_append]
    rfl

/-- An error that is not recorded has not the wording of a problem. -/
theorem Origin.ne_message {m : String} (h : Origin (fun _ => False) m) (problem : Problem) :
    m ≠ problem.message := by
  rintro rfl
  have hproblem := problem.getElem?_message
  generalize problem.message = message at h hproblem
  cases h with
  | unsupported => rcases hproblem with h | h <;> cases h
  | divisionByZero => rcases hproblem with h | h <;> cases h
  | overflow _ _ =>
    simp only [String.toList_append] at hproblem
    rcases hproblem with h | h <;> cases h
  | negationOverflow _ =>
    simp only [String.toList_append] at hproblem
    rcases hproblem with h | h <;> cases h
  | diagnostic hfound => exact hfound

/-! ## Runs -/

/-- The errors of a parsed tree, of the run of its text and of a file with the text. -/
theorem error_origin (source : String) :
    (∀ (supply : Supply) (m : String),
      ((parse source).program.evaluate.run supply).value.value = .error m →
        Origin (· ∈ (parse source).diagnostics) m) ∧
    (∀ object : Object, (run source).result = .ok object →
      ∀ m, object.value = .error m →
        Origin (fun _ => False) m ∧ ∀ problem : Problem, m ≠ problem.message) ∧
    ∀ (path : String) (content : Text.Bytes), Text.decode? content = some source →
      (∀ m, (runFile path (some content)).result = .error (.runtimeError m) ↔
        ∃ object, (run source).result = .ok object ∧ object.value = .error m) ∧
      (∀ found, (runFile path (some content)).result = .error (.syntaxErrors found) ↔
        (run source).result = .error (.syntaxErrors found)) ∧
      ∀ object, (runFile path (some content)).result = .ok object ↔
        (run source).result = .ok object ∧ object.value.isError = false := by
  refine ⟨fun _ _ => origin_of_value_evaluate, fun object hrun m hvalue => ?_, ?_⟩
  · rw [result_run] at hrun
    split at hrun
    next hnone =>
      cases hrun
      have horigin := origin_of_value_evaluate hvalue
      simp only [hnone, List.not_mem_nil] at horigin
      exact ⟨horigin, horigin.ne_message⟩
    next => exact nomatch hrun
  · intro path content hsource
    rw [result_runFile hsource]
    refine ⟨fun m => failOnError_eq_runtimeError_iff _ fun m hrun => ?_,
      fun _ => failOnError_eq_syntaxErrors_iff _, fun _ => failOnError_eq_ok_iff _⟩
    rw [result_run] at hrun
    split at hrun <;> exact nomatch hrun

/-- A file with a quotient by zero fails with the error that the run of its text answers. -/
theorem error_origin_of_quotient :
    let source := "1 / 0"
    ((parse source).program.evaluate.run ⟨0⟩).value.value = .error "division by zero" ∧
      Origin (· ∈ (parse source).diagnostics) "division by zero" ∧
      (run source).result = .ok (.allocated 2 (.error "division by zero")) ∧
      (∀ problem : Problem, "division by zero" ≠ problem.message) ∧
      Text.decode? (Text.encode source) = some source ∧
      (runFile "quotient.say" (some (Text.encode source))).result =
        .error (.runtimeError "division by zero") := by
  intro source
  obtain ⟨hparsed, hran, hfile⟩ := error_origin source
  have hevaluated : ((parse source).program.evaluate.run ⟨0⟩).value =
      .allocated 2 (.error "division by zero") := by
    decide
  have hrun : (run source).result = .ok (.allocated 2 (.error "division by zero")) := by
    rw [result_run, if_pos (by decide), hevaluated]
  have hsource : Text.decode? (Text.encode source) = some source := Text.decode?_encode source
  have hvalue : ((parse source).program.evaluate.run ⟨0⟩).value.value =
      .error "division by zero" := by
    rw [hevaluated]
    rfl
  exact ⟨hvalue, hparsed _ _ hvalue, hrun, (hran _ hrun _ rfl).2, hsource,
    ((hfile _ _ hsource).1 _).mpr ⟨_, hrun, rfl⟩⟩

end SayLang
