import SayLang.Log
import SayLang.Parser.Climb
import SayLang.Proofs.Delivery

/-!
# Statements up to the first error

A list of statements is evaluated up to the first one that evaluates to an error, and no further.
What evaluation shows of a statement is its value and the records it emits (`Effect`). Neither
depends on what was allocated before, so what a list shows is told by what each of its statements
shows on its own.

> `Statement.effect_evaluate`: what a statement shows is the same from whatever supply.
> `effect_evaluateStatements`: what a list shows is what its statements show in turn.
> `statements_end_at_first_error`: the list stops at the first error, and nowhere else.

Operators and conditions swallow an error of an operand, branches and blocks hand it on, and so the
first is proved by recursion on the tree; where a condition decides what is evaluated, it is the
value of the condition that is the same.
-/

namespace SayLang

/-- What evaluation shows: the value answered and the records emitted. -/
structure Effect where
  /-- The value. -/
  value : Value
  /-- The records, in order. -/
  records : List Log.Record
deriving DecidableEq

namespace Evaluation

/-- What a computation shows from a supply. -/
def effect (p : Evaluation Object) (supply : Supply) : Effect :=
  ⟨(p.run supply).value.value, (p.run supply).events.map Log.ofUnsupported⟩

/-- A sequence shows the value of its second part and the records of both. -/
theorem effect_bind (p : Evaluation Object) (f : Object → Evaluation Object) (supply : Supply) :
    (p >>= f).effect supply =
      ⟨((f (p.run supply).value).effect (p.run supply).state).value,
        (p.effect supply).records ++
          ((f (p.run supply).value).effect (p.run supply).state).records⟩ := by
  simp only [effect, Traced.run_bind, List.map_append]

/-! ## The same nodes are reported every time -/

/-- The nodes reported do not depend on the supply. -/
def Repeats (p : Evaluation Object) : Prop :=
  ∀ supply supply' : Supply, (p.run supply).events = (p.run supply').events

theorem Repeats.bind {p : Evaluation Object} {f : Object → Evaluation Object} (hp : Repeats p)
    (hf : ∀ supply supply' : Supply,
      ((f (p.run supply).value).run (p.run supply).state).events =
        ((f (p.run supply').value).run (p.run supply').state).events) :
    Repeats (p >>= f) := by
  intro supply supply'
  rw [Traced.run_bind, Traced.run_bind, hp supply supply', hf supply supply']

/-- Handing out a value reports nothing. -/
theorem events_deliver (value : Value) (supply : Supply) :
    ((Object.deliver value : Evaluation Object).run supply).events = [] := by
  cases value <;> rfl

/-- So handing out a value made of an operand reports what the operand does. -/
theorem events_bind_deliver (p : Evaluation Object) (f : Object → Value) (supply : Supply) :
    ((p >>= fun object => Object.deliver (f object)).run supply).events =
      (p.run supply).events := by
  rw [Traced.run_bind]
  show (p.run supply).events ++ ((Object.deliver _ : Evaluation Object).run _).events = _
  rw [events_deliver, List.append_nil]

theorem repeats_deliver (value : Value) : Repeats (Object.deliver value) := by
  intro supply supply'
  rw [events_deliver, events_deliver]

theorem repeats_unsupported (node : Node) : Repeats (unsupported node) := fun _ _ => rfl

theorem repeats_conditional {condition consequence alternative : Evaluation Object} {c : Value}
    (hdelivers : Delivers condition c) (hcondition : Repeats condition)
    (hconsequence : Repeats consequence) (halternative : Repeats alternative) :
    Repeats
      (do
        let condition ← condition
        if condition.isTruthy then consequence else alternative) := by
  refine hcondition.bind fun supply supply' => ?_
  rw [(hdelivers supply).handed.isTruthy_eq, (hdelivers supply').handed.isTruthy_eq]
  split
  · exact hconsequence _ _
  · exact halternative _ _

end Evaluation

section repeats

open Evaluation

mutual

theorem Expression.repeats : ∀ e : Expression, Repeats e.evaluate
  | .number _ _ | .boolean _ _ | .error _ _ => repeats_deliver _
  | .unary _ operand => fun supply supply' =>
    (events_bind_deliver _ _ supply).trans
      ((operand.repeats supply supply').trans (events_bind_deliver _ _ supply').symm)
  | .binary left _ right => left.repeats.bind fun _ _ =>
    (events_bind_deliver _ _ _).trans
      ((right.repeats _ _).trans (events_bind_deliver _ _ _).symm)
  | .ifThen _ condition consequence =>
    repeats_conditional condition.delivers condition.repeats consequence.repeats
      (repeats_deliver .null)
  | .ifElse _ condition consequence alternative =>
    repeats_conditional condition.delivers condition.repeats consequence.repeats
      alternative.repeats
  | .identifier _ | .function _ _ _ | .call _ _ _ => repeats_unsupported _

theorem Statement.repeats : ∀ s : Statement, Repeats s.evaluate
  | .expression _ value => value.repeats
  | .block body => body.repeats
  | .say _ _ _ | .bareReturn _ | .returnOf _ _ => repeats_unsupported _

theorem Statement.repeatsEach : ∀ (statements : List Statement) (last last' : Object)
    (supply supply' : Supply),
    ((Statement.evaluateEach statements last).run supply).events =
      ((Statement.evaluateEach statements last').run supply').events
  | [], _, _, _, _ => rfl
  | statement :: rest, _, _, supply, supply' => by
    refine statement.repeats.bind (fun supply supply' => ?_) supply supply'
    rw [(statement.delivers supply).handed.value_eq, (statement.delivers supply').handed.value_eq]
    split
    · rfl
    · exact Statement.repeatsEach rest _ _ _ _

theorem Block.repeats : ∀ b : Block, Repeats b.evaluate
  | .mk _ statements => Statement.repeatsEach statements _ _

end

end repeats

/-- What a statement shows is the same from whatever supply. -/
theorem Statement.effect_evaluate (s : Statement) (supply supply' : Supply) :
    s.evaluate.effect supply = s.evaluate.effect supply' := by
  rw [Evaluation.effect, Evaluation.effect, s.repeats supply supply',
    (s.delivers supply).handed.value_eq, (s.delivers supply').handed.value_eq]

/-! ## Effects in turn -/

namespace Effect

/-- What computations show one after the other, up to the first error, where `before` is the value
in front of them. -/
def inTurn (before : Value) : List Effect → Effect
  | [] => ⟨before, []⟩
  | first :: rest =>
    if first.value.isError then first
    else ⟨(inTurn first.value rest).value, first.records ++ (inTurn first.value rest).records⟩

/-- The first error is the value, and nothing behind it is recorded. -/
theorem inTurn_of_isError {failing : Effect} (hfailing : failing.value.isError = true)
    (back : List Effect) : ∀ (before : Value) (front : List Effect),
      (∀ effect ∈ front, effect.value.isError = false) →
        inTurn before (front ++ failing :: back) =
          ⟨failing.value, (front ++ [failing]).flatMap records⟩
  | before, [], _ => by
    rw [List.nil_append, inTurn, if_pos hfailing]
    simp
  | before, first :: front, hfront => by
    obtain ⟨hfirst, hfront⟩ := List.forall_mem_cons.mp hfront
    rw [List.cons_append, inTurn, if_neg (by rw [hfirst]; decide),
      inTurn_of_isError hfailing back first.value front hfront, List.cons_append,
      List.flatMap_cons]

/-- Without an error the last value counts, and everything is recorded. -/
theorem inTurn_of_not_isError : ∀ (before : Value) (effects : List Effect),
    (∀ effect ∈ effects, effect.value.isError = false) →
      inTurn before effects = ⟨(effects.map value).getLastD before, effects.flatMap records⟩
  | before, [], _ => rfl
  | before, first :: rest, heffects => by
    obtain ⟨hfirst, hrest⟩ := List.forall_mem_cons.mp heffects
    rw [inTurn, if_neg (by rw [hfirst]; decide), inTurn_of_not_isError first.value rest hrest,
      List.map_cons, List.getLastD_cons, List.flatMap_cons]

/-- Behind computations that show an error nothing more is shown. Behind others what follows is, and
the value in front of that does not count. -/
theorem inTurn_append {second : List Effect} (hsecond : second ≠ []) :
    ∀ (before : Value) (first : List Effect), before.isError = false →
      inTurn before (first ++ second) =
        if (inTurn before first).value.isError then inTurn before first
        else ⟨(inTurn .null second).value,
          (inTurn before first).records ++ (inTurn .null second).records⟩
  | before, [], hbefore => by
    obtain ⟨head, rest, rfl⟩ := List.exists_cons_of_ne_nil hsecond
    rw [List.nil_append, inTurn.eq_1 before, if_neg (by rw [hbefore]; decide), List.nil_append]
    rfl
  | before, head :: first, hbefore => by
    rw [List.cons_append, inTurn, inTurn]
    cases hhead : head.value.isError with
    | true => simp [hhead]
    | false =>
      rw [inTurn_append hsecond head.value first hhead]
      cases hfirst : (inTurn head.value first).value.isError <;> simp [hfirst]

end Effect

/-! ## Lists of statements -/

/-- What a list shows is what its statements show in turn, wherever each of them is evaluated. -/
theorem effect_evaluateEach (alone : Statement → Supply) :
    ∀ (statements : List Statement) (last : Object) (supply : Supply),
      (Statement.evaluateEach statements last).effect supply =
        .inTurn last.value (statements.map fun s => s.evaluate.effect (alone s))
  | [], _, _ => rfl
  | statement :: rest, _, supply => by
    rw [Statement.evaluateEach, Evaluation.effect_bind, List.map_cons, Effect.inTurn,
      statement.effect_evaluate (alone statement) supply]
    by_cases herror : (statement.evaluate.effect supply).value.isError = true
    · have herror' : (statement.evaluate.run supply).value.value.isError = true := herror
      rw [if_pos herror, if_pos herror']
      show Effect.mk _ (_ ++ []) = _
      rw [List.append_nil]
      rfl
    · have herror' : ¬ (statement.evaluate.run supply).value.value.isError = true := herror
      rw [if_neg herror, if_neg herror', effect_evaluateEach alone rest]
      rfl

/-- So it is with the statements of a program or of a block, from no value at all. -/
theorem effect_evaluateStatements (alone : Statement → Supply) (statements : List Statement)
    (supply : Supply) :
    (evaluateStatements statements).effect supply =
      .inTurn .null (statements.map fun s => s.evaluate.effect (alone s)) :=
  effect_evaluateEach alone statements (.shared .null) supply

/-- Of two lists one behind the other the second one counts, unless the first one shows an error or
there is nothing behind it. -/
theorem effect_evaluateStatements_append (statements others : List Statement)
    (supply later : Supply) :
    (evaluateStatements (statements ++ others)).effect supply =
      if ((evaluateStatements statements).effect supply).value.isError = true ∨ others = [] then
        (evaluateStatements statements).effect supply
      else
        ⟨((evaluateStatements others).effect later).value,
          ((evaluateStatements statements).effect supply).records ++
            ((evaluateStatements others).effect later).records⟩ := by
  by_cases hnil : others = []
  · rw [if_pos (.inr hnil), hnil, List.append_nil]
  · rw [effect_evaluateStatements fun _ => supply, effect_evaluateStatements fun _ => supply,
      effect_evaluateStatements (fun _ => supply) others, List.map_append,
      Effect.inTurn_append (fun h => hnil (List.map_eq_nil_iff.mp h)) _ _ rfl]
    simp only [hnil, or_false]

/-- Behind an error nothing is evaluated. -/
theorem run_evaluateEach_of_isError {failing : Statement}
    (hfailing : ∀ supply, (failing.evaluate.effect supply).value.isError = true)
    (back : List Statement) :
    ∀ (front : List Statement) (last : Object) (supply : Supply),
      (Statement.evaluateEach (front ++ failing :: back) last).run supply =
        (Statement.evaluateEach (front ++ [failing]) last).run supply
  | [], last, supply => by
    have herror : (failing.evaluate.run supply).value.value.isError = true := hfailing supply
    rw [List.nil_append, List.nil_append, Statement.evaluateEach, Statement.evaluateEach,
      Traced.run_bind, Traced.run_bind, herror, if_pos rfl, if_pos rfl]
  | statement :: front, last, supply => by
    rw [List.cons_append, List.cons_append, Statement.evaluateEach, Statement.evaluateEach,
      Traced.run_bind, Traced.run_bind]
    split
    · rfl
    · rw [run_evaluateEach_of_isError hfailing back front]

/-- A program and a block evaluate their statements. Where these are evaluated, from whatever
supply, and each of them alone, from a supply of its own: the list shows the first error among the
values, with the records of the statements up to that one, and does what it would do without those
behind. Without an error it shows the last value, null when there are no statements, and all
records. So of two lists one behind the other the second one counts unless the first one shows an
error or there are no others. -/
theorem statements_end_at_first_error (statements : List Statement) (supply : Supply)
    (alone : Statement → Supply) :
    let listed := (evaluateStatements statements).effect supply
    let shown (s : Statement) := s.evaluate.effect (alone s)
    ((Program.mk statements).evaluate = evaluateStatements statements ∧
      ∀ brace, (Block.mk brace statements).evaluate = evaluateStatements statements) ∧
    (∀ front failing back, statements = front ++ failing :: back →
      (∀ s ∈ front, (shown s).value.isError = false) → (shown failing).value.isError = true →
        listed = ⟨(shown failing).value, (front ++ [failing]).flatMap fun s => (shown s).records⟩ ∧
          (evaluateStatements statements).run supply =
            (evaluateStatements (front ++ [failing])).run supply) ∧
    ((∀ s ∈ statements, (shown s).value.isError = false) →
      listed = ⟨(statements.map fun s => (shown s).value).getLastD .null,
        statements.flatMap fun s => (shown s).records⟩) ∧
    ∀ (others : List Statement) (later : Supply),
      (evaluateStatements (statements ++ others)).effect supply =
        if listed.value.isError = true ∨ others = [] then listed
        else
          ⟨((evaluateStatements others).effect later).value,
            listed.records ++ ((evaluateStatements others).effect later).records⟩ := by
  intro listed shown
  have hlisted : listed = .inTurn .null (statements.map shown) :=
    effect_evaluateStatements alone statements supply
  refine ⟨⟨rfl, fun _ => rfl⟩, ?_, ?_,
    fun others later => effect_evaluateStatements_append statements others supply later⟩
  · intro front failing back hsplit hfront hfailing
    refine ⟨?_, ?_⟩
    · rw [hlisted, hsplit, List.map_append, List.map_cons,
        Effect.inTurn_of_isError hfailing _ _ _ (List.forall_mem_map.mpr hfront)]
      rw [← List.map_singleton, ← List.map_append, List.flatMap_map]
    · rw [hsplit]
      refine run_evaluateEach_of_isError (fun supply => ?_) back front (.shared .null) supply
      rwa [failing.effect_evaluate supply (alone failing)]
  · intro hnone
    rw [hlisted, Effect.inTurn_of_not_isError _ _ (List.forall_mem_map.mpr hnone), List.map_map,
      List.flatMap_map]
    rfl

/-- An error in a branch stops the list around it; the one in front is swallowed by its operator,
but the node that it comes from is reported. -/
theorem statements_end_inside_branch :
    let statements := (parse "!x; if (true) \x7b y; 5 \x7d; z").program.statements
    let shown (s : Statement) := s.evaluate.effect ⟨7⟩
    ∃ front failing back, statements = front ++ failing :: back ∧
      (∀ s ∈ front, (shown s).value.isError = false) ∧ (shown failing).value.isError = true ∧
      (evaluateStatements statements).effect ⟨0⟩ =
        ⟨.error "Error encountered!",
          [⟨.trace, "sayer::interpreter", "no evaluation rule for x"⟩,
            ⟨.trace, "sayer::interpreter", "no evaluation rule for y"⟩]⟩ := by
  intro statements shown
  have hsplit : statements = statements.take 1 ++ statements[1] :: statements.drop 2 := rfl
  have hfront : ∀ s ∈ statements.take 1, (shown s).value.isError = false := by decide
  have hfailing : (shown statements[1]).value.isError = true := by decide
  refine ⟨_, _, _, hsplit, hfront, hfailing, ?_⟩
  rw [((statements_end_at_first_error statements ⟨0⟩ fun _ => ⟨7⟩).2.1 _ _ _ hsplit hfront
    hfailing).1]
  decide

end SayLang
