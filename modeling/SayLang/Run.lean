import SayLang.Log
import SayLang.Text.Bytes

/-!
# Running a source text

A run parses the source and, when nothing was found wrong, evaluates the program. Diagnostics keep
the program from being evaluated. The value may be an error: run from a text it is a value like the
others, run from a file it is a failure.
-/

namespace SayLang

/-- Why a run answers no value. -/
inductive Failure where
  /-- The file cannot be read as text. -/
  | unreadable (path : String)
  /-- The source was found wrong. -/
  | syntaxErrors (diagnostics : List Diagnostic)
  /-- The program of a file evaluated to an error. -/
  | runtimeError (message : String)
deriving DecidableEq

/-- The wording of a failure. -/
def Failure.message : Failure → String
  | unreadable path => "SayerInternalError: Failed open source file " ++ path
  | syntaxErrors diagnostics =>
    "Parser errors:\n" ++ "\n".intercalate (diagnostics.map Diagnostic.text)
  | runtimeError message => "Runtime error: " ++ message

/-- What a run answers, and what it reports on the way. -/
structure Run where
  /-- The value, or why there is none. -/
  result : Except Failure Object
  /-- The records, in order. -/
  records : List Log.Record

/-- Runs a source text. -/
def run (source : String) : Run :=
  let parsed := parse source
  let parsing := parsed.events.filterMap Log.ofEvent?
  match parsed.diagnostics with
  | [] =>
    let evaluated := parsed.program.evaluate.run ⟨0⟩
    ⟨.ok evaluated.value,
      parsing ++ Log.parsed parsed.program :: evaluated.events.map Log.ofUnsupported⟩
  | diagnostics => ⟨.error (.syntaxErrors diagnostics), parsing⟩

/-- The result of a run as one of a file: an error value is a failure. -/
def failOnError (result : Except Failure Object) : Except Failure Object := do
  let object ← result
  match object.value with
  | .error message => .error (.runtimeError message)
  | _ => .ok object

/-- Runs a file, given its bytes if it can be opened. -/
def runFile (path : String) (content : Option Text.Bytes) : Run :=
  match content.bind Text.decode? with
  | none => ⟨.error (.unreadable path), [Log.running path]⟩
  | some source =>
    let inner := run source
    ⟨failOnError inner.result, Log.running path :: inner.records⟩

/-! ## Results -/

/-- A run either evaluates the program or answers what was recorded. -/
theorem result_run (source : String) :
    (run source).result =
      if (parse source).diagnostics = [] then
        .ok ((parse source).program.evaluate.run ⟨0⟩).value
      else .error (.syntaxErrors (parse source).diagnostics) := by
  simp only [run]
  cases h : (parse source).diagnostics with
  | nil => rw [if_pos rfl]
  | cons found others => rw [if_neg (List.cons_ne_nil found others)]

/-- A file that is read fails with the errors of the run of its text. -/
theorem result_runFile {path : String} {content : Text.Bytes} {source : String}
    (h : Text.decode? content = some source) :
    (runFile path (some content)).result = failOnError (run source).result := by
  rw [runFile, Option.bind_some, h]

section failing

variable (result : Except Failure Object)

/-- A failure stays, an error value becomes one, and any other value is answered. -/
theorem failOnError_cases :
    (∃ failure, result = .error failure ∧ failOnError result = .error failure) ∨
      (∃ object m, result = .ok object ∧ object.value = .error m ∧
        failOnError result = .error (.runtimeError m)) ∨
      ∃ object, result = .ok object ∧ object.value.isError = false ∧
        failOnError result = .ok object := by
  cases result with
  | error failure => exact .inl ⟨failure, rfl, rfl⟩
  | ok object =>
    have hresult : failOnError (.ok object) =
        match object.value with
        | .error m => .error (.runtimeError m)
        | _ => .ok object :=
      rfl
    cases hvalue : object.value with
    | error m => exact .inr (.inl ⟨object, m, rfl, hvalue, by rw [hresult, hvalue]⟩)
    | integer _ | boolean _ | null =>
      exact .inr (.inr ⟨object, rfl, by rw [hvalue]; rfl, by rw [hresult, hvalue]⟩)

theorem failOnError_eq_runtimeError_iff (hrun : ∀ m, result ≠ .error (.runtimeError m))
    {m : String} :
    failOnError result = .error (.runtimeError m) ↔
      ∃ object, result = .ok object ∧ object.value = .error m := by
  rcases failOnError_cases result with
    ⟨failure, rfl, h⟩ | ⟨object, message, rfl, hvalue, h⟩ | ⟨object, rfl, hvalue, h⟩
  · simp [h, hrun]
  · simp [h, hvalue]
  · simp only [h, reduceCtorEq, Except.ok.injEq, exists_eq_left', false_iff]
    exact fun herror => by rw [herror] at hvalue; exact nomatch hvalue

theorem failOnError_eq_syntaxErrors_iff {found : List Diagnostic} :
    failOnError result = .error (.syntaxErrors found) ↔ result = .error (.syntaxErrors found) := by
  rcases failOnError_cases result with
    ⟨failure, rfl, h⟩ | ⟨object, message, rfl, -, h⟩ | ⟨object, rfl, -, h⟩ <;> simp [h]

theorem failOnError_eq_ok_iff {object : Object} :
    failOnError result = .ok object ↔ result = .ok object ∧ object.value.isError = false := by
  rcases failOnError_cases result with
    ⟨failure, rfl, h⟩ | ⟨inner, message, rfl, hvalue, h⟩ | ⟨inner, rfl, hvalue, h⟩
  · simp [h]
  · simp only [h, reduceCtorEq, Except.ok.injEq, false_iff]
    rintro ⟨rfl, herror⟩
    rw [hvalue] at herror
    exact nomatch herror
  · simp only [h, Except.ok.injEq, iff_self_and]
    rintro rfl
    exact hvalue

end failing

end SayLang
