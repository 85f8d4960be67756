import Mathlib.Data.List.Forall2
import SayLang.CommandLine
import SayLang.Proofs.LineFeeds
import SayLang.Proofs.SourceOrder

/-!
# A session line by line

A session keeps one buffer for all its turns, and a turn can end in four ways. Yet what is answered
to a line is a matter of that line alone: a turn empties the buffer before it reads, and a line that
is not text is passed like any other. So a session is made of its lines, and a session over two
inputs one behind the other, of which the first does not break off within a line, is made of the
sessions over each.

> `State.converse_eq`: a session answers its lines one after the other, each behind a prompt.
> `answers_answerTo`: what is written for a line is one of the four answers.
> `session_line_by_line`: both together, for the program called for a session.

A line feed stands at the end of a line only, and trimming takes it off. That is why all that is
found wrong with a line is wrong on the first line of what was run.
-/

namespace SayLang

/-! ## What is shown of a run -/

/-- A run reports details only. -/
theorem severity_of_mem_records {source : String} {record : Log.Record}
    (hrecord : record ∈ (run source).records) :
    record.severity = .debug ∨ record.severity = .trace := by
  have hparsing : ∀ record ∈ (parse source).events.filterMap Log.ofEvent?,
      record.severity = .debug ∨ record.severity = .trace := by
    intro record hrecord
    obtain ⟨event, -, hevent⟩ := List.mem_filterMap.mp hrecord
    cases event with
    | statement _ _ =>
      rw [← Option.some.inj hevent]
      exact .inr rfl
    | diagnostic _ _ =>
      rw [← Option.some.inj hevent]
      exact .inl rfl
    | expression _ => cases hevent
  unfold run at hrecord
  cases hfound : (parse source).diagnostics with
  | nil =>
    simp only [hfound, List.mem_append, List.mem_cons, List.mem_map] at hrecord
    rcases hrecord with hrecord | rfl | ⟨node, -, rfl⟩
    · exact hparsing record hrecord
    · exact .inl rfl
    · exact .inr rfl
  | cons _ _ =>
    simp only [hfound] at hrecord
    exact hparsing record hrecord

/-- So nothing of it is written unless more detail is asked for. -/
theorem ofRecords_run (source : String) :
    Transcript.ofRecords (some .warn) (run source).records = [] := by
  have hnone : Log.filter (some .warn) (run source).records = [] := by
    refine List.filter_eq_nil_iff.mpr fun record hrecord => ?_
    rcases severity_of_mem_records hrecord with h | h <;> rw [h] <;> decide
  rw [Transcript.ofRecords, hnone, List.map_nil]

/-- What is written piece by piece shows on a stream piece by piece. -/
theorem Transcript.join_filterMap_flatMap {α : Type} (stream : Chunk → Option String)
    (f : α → Transcript) (xs : List α) :
    String.join ((xs.flatMap f).filterMap stream) =
      String.join (xs.map fun x => String.join ((f x).filterMap stream)) := by
  induction xs with
  | nil => rfl
  | cons x xs ih =>
    rw [List.flatMap_cons, List.filterMap_append, String.join_append, ih, List.map_cons,
      String.join_cons]

namespace Repl

/-! ## Answers -/

/-- What is written in answer to a line. -/
def answerTo (threshold : Log.Threshold) (line : Text.Bytes) : Transcript :=
  match Text.decode? line with
  | none => [unreadable]
  | some text => respond threshold text

/-- On the standard output the log does not show. -/
theorem stdout_answerTo (threshold : Log.Threshold) (line : Text.Bytes) :
    (answerTo threshold line).stdout = (answerTo (some .warn) line).stdout := by
  rw [answerTo, answerTo]
  cases Text.decode? line with
  | none => rfl
  | some text =>
    show (respond _ text).stdout = (respond _ text).stdout
    rw [respond, respond]
    split
    · rfl
    · simp only [answer, Transcript.stdout_append, Transcript.stdout_ofRecords]

/-- Without details a source text is answered by its value. -/
theorem answer_of_ok {source : String} {object : Object} (h : (run source).result = .ok object) :
    answer (some .warn) source = [.out (object.value.describe ++ "\n")] := by
  simp only [answer, ofRecords_run, h, List.nil_append]

/-- Or else by the wording of the failure. -/
theorem answer_of_error {source : String} {failure : Failure}
    (h : (run source).result = .error failure) :
    answer (some .warn) source = [.err (failure.message ++ "\n")] := by
  simp only [answer, ofRecords_run, h, List.nil_append]

/-- The answers to a line: what they show on the standard output and on the standard error, where
the log does not show details. -/
inductive Answers (line : Text.Bytes) : String → String → Prop where
  /-- A line that is not text is said to be so. -/
  | unreadable (hline : Text.decode? line = none) :
      Answers line "" "Failed read line: stream did not contain valid UTF-8\n"
  /-- A line of white space is answered by nothing. -/
  | blank {text : String} (hline : Text.decode? line = some text)
      (hblank : Text.trim text.toList = []) : Answers line "" ""
  /-- Any other line is run without the white space around it, and answered by its value. -/
  | value {text source : String} {object : Object} (hline : Text.decode? line = some text)
      (hsource : source.toList = Text.trim text.toList) (hne : source.toList ≠ [])
      (hrun : (run source).result = .ok object) :
      Answers line (object.value.describe ++ "\n") ""
  /-- Or by what was found wrong, all of it on the first line. -/
  | errors {text source : String} {found : List Diagnostic}
      (hline : Text.decode? line = some text) (hsource : source.toList = Text.trim text.toList)
      (hne : source.toList ≠ []) (hrun : (run source).result = .error (.syntaxErrors found))
      (hfound : ∀ diagnostic ∈ found, diagnostic.line = 1) :
      Answers line "" ((Failure.syntaxErrors found).message ++ "\n")

/-- What is written for a line of an input is an answer to it. -/
theorem answers_answerTo {input line : Text.Bytes} (hline : line ∈ Text.lines input) :
    Answers line (answerTo (some .warn) line).stdout (answerTo (some .warn) line).stderr := by
  rw [answerTo]
  cases htext : Text.decode? line with
  | none => exact .unreadable htext
  | some text =>
    show Answers line (respond _ text).stdout (respond _ text).stderr
    rw [respond]
    cases htrim : Text.trim text.toList with
    | nil => exact .blank htext htrim
    | cons c cs =>
      have hsource : (String.ofList (c :: cs)).toList = Text.trim text.toList := by
        rw [String.toList_ofList, htrim]
      have hne : (String.ofList (c :: cs)).toList ≠ [] := by
        rw [String.toList_ofList]
        exact List.cons_ne_nil c cs
      have hrun := result_run (String.ofList (c :: cs))
      show Answers line (answer _ _).stdout (answer _ _).stderr
      split at hrun
      · simp only [answer_of_ok hrun, Transcript.stdout_out, Transcript.stderr_out,
          Transcript.stdout_nil, Transcript.stderr_nil, String.append_empty]
        exact .value htext hsource hne hrun
      · simp only [answer_of_error hrun, Transcript.stdout_err, Transcript.stderr_err,
          Transcript.stdout_nil, Transcript.stderr_nil, String.append_empty]
        refine .errors htext hsource hne hrun fun diagnostic hdiagnostic => ?_
        refine line_eq_one_of_mem_diagnostics ?_ hdiagnostic
        rw [hsource]
        exact Text.lineFeed_not_mem_trim hline htext

/-! ## Turns -/

/-- As long as there is input a turn takes the first line off it and answers that, whatever is in
the buffer. -/
theorem State.turn_eq (threshold : Log.Threshold) {state : State} (h : state.input ≠ []) :
    ∃ buffer, state.turn threshold =
      (answerTo threshold (Text.cutLine state.input).1,
        some ⟨buffer, (Text.cutLine state.input).2⟩) := by
  rw [turn_of_ne_nil threshold h, answerTo]
  cases Text.decode? (Text.cutLine state.input).1 with
  | none => exact ⟨"", rfl⟩
  | some text => exact ⟨text, rfl⟩

/-- What the turns write that answer lines, each behind its prompt. -/
def turns (threshold : Log.Threshold) (lines : List Text.Bytes) : Transcript :=
  lines.flatMap fun line => prompt :: answerTo threshold line

/-- A session answers its lines one after the other, and a last turn ends it. -/
theorem State.converse_eq (threshold : Log.Threshold) (state : State) :
    state.converse threshold = turns threshold (Text.lines state.input) ++ [prompt, farewell] := by
  by_cases hinput : state.input = []
  · rw [converse, turn_of_nil threshold hinput, hinput]
    rfl
  · obtain ⟨buffer, hturn⟩ := turn_eq threshold hinput
    have hlater := converse_eq threshold ⟨buffer, (Text.cutLine state.input).2⟩
    rw [converse, hturn]
    show prompt :: (_ ++ State.converse threshold _) = _
    rw [hlater, Text.lines_of_ne_nil hinput, turns, turns, List.flatMap_cons, List.cons_append,
      List.cons_append, List.append_assoc]
termination_by state.input.length
decreasing_by exact Text.length_cutLine_snd_lt hinput

theorem turns_append (threshold : Log.Threshold) (first second : List Text.Bytes) :
    turns threshold (first ++ second) = turns threshold first ++ turns threshold second :=
  List.flatMap_append

theorem stdout_turns (threshold : Log.Threshold) (lines : List Text.Bytes) :
    (turns threshold lines).stdout =
      String.join (lines.map fun line => "> " ++ (answerTo (some .warn) line).stdout) := by
  rw [Transcript.stdout, turns, Transcript.join_filterMap_flatMap]
  congr 1
  refine List.map_congr_left fun line _ => ?_
  rw [← stdout_answerTo threshold]
  exact Transcript.stdout_out "> " _

theorem stderr_turns (threshold : Log.Threshold) (lines : List Text.Bytes) :
    (turns threshold lines).stderr =
      String.join (lines.map fun line => (answerTo threshold line).stderr) := by
  rw [Transcript.stderr, turns, Transcript.join_filterMap_flatMap]
  rfl

/-! ## Sessions -/

theorem session_eq (threshold : Log.Threshold) (input : Text.Bytes) :
    session threshold input = turns threshold (Text.lines input) ++ [prompt, farewell] :=
  State.converse_eq threshold ⟨"", input⟩

/-- On the standard output a session shows its turns and then the last prompt and the farewell. -/
theorem stdout_session (threshold : Log.Threshold) (input : Text.Bytes) :
    (session threshold input).stdout =
      (turns threshold (Text.lines input)).stdout ++ ("> " ++ "\nExited sayer repl\n") := by
  rw [session_eq, Transcript.stdout_append]
  rfl

/-- And on the standard error its turns alone. -/
theorem stderr_session (threshold : Log.Threshold) (input : Text.Bytes) :
    (session threshold input).stderr = (turns threshold (Text.lines input)).stderr := by
  rw [session_eq, Transcript.stderr_append]
  exact String.append_empty

end Repl

/-- Called for a session the program ends well on every input. Over two inputs one behind the other,
of which the first is empty or ends with a line feed, it writes what it writes over the first, up to
the last prompt, and then what it writes over the second. For each line there is a prompt and then
an answer to that line, and behind the last one there is a prompt and the farewell; without details
nothing else is written on either stream. -/
theorem session_line_by_line (contentAt : String → Option Text.Bytes) {arguments : List String}
    {verbose : Bool} (harguments : CommandLine.read arguments = .ok ⟨verbose, .repl⟩) :
    let ending (input : Text.Bytes) := CommandLine.execute contentAt input arguments
    (∀ input, (ending input).code = 0) ∧
    (∀ front rest, front = [] ∨ front.getLast? = some Text.lineFeed →
      (∃ shown,
        (ending front).transcript.stdout = shown ++ ("> " ++ "\nExited sayer repl\n") ∧
        (ending (front ++ rest)).transcript.stdout = shown ++ (ending rest).transcript.stdout) ∧
      (ending (front ++ rest)).transcript.stderr =
        (ending front).transcript.stderr ++ (ending rest).transcript.stderr) ∧
    ∀ input, ∃ answers : List (String × String),
      List.Forall₂ (fun line answer => Repl.Answers line answer.1 answer.2)
        (Text.lines input) answers ∧
      (ending input).transcript.stdout =
        String.join (answers.map fun answer => "> " ++ answer.1) ++
          ("> " ++ "\nExited sayer repl\n") ∧
      (verbose = false →
        (ending input).transcript.stderr = String.join (answers.map Prod.snd)) := by
  intro ending
  let threshold := CommandLine.Invocation.threshold ⟨verbose, .repl⟩
  have hending (input : Text.Bytes) : ending input = ⟨0, Repl.session threshold input⟩ := by
    show CommandLine.execute contentAt input arguments = _
    rw [CommandLine.execute, harguments]
  simp only [hending]
  refine ⟨fun _ => trivial, fun front rest hfront =>
    ⟨⟨_, Repl.stdout_session threshold front, ?_⟩, ?_⟩, fun input => ?_⟩
  · rw [Repl.stdout_session, Repl.stdout_session, Text.lines_append hfront, Repl.turns_append,
      Transcript.stdout_append, String.append_assoc]
  · rw [Repl.stderr_session, Repl.stderr_session, Repl.stderr_session, Text.lines_append hfront,
      Repl.turns_append, Transcript.stderr_append]
  · refine ⟨(Text.lines input).map fun line =>
      ((Repl.answerTo (some .warn) line).stdout, (Repl.answerTo (some .warn) line).stderr),
      ?_, ?_, ?_⟩
    · rw [List.forall₂_map_right_iff, List.forall₂_same]
      exact fun line hline => Repl.answers_answerTo hline
    · rw [Repl.stdout_session, Repl.stdout_turns, List.map_map]
      rfl
    · rintro rfl
      rw [Repl.stderr_session, Repl.stderr_turns, List.map_map]
      rfl

/-- An input broken behind a line that is not text, with a last line that is not ended. -/
theorem session_over_unreadable_line :
    let ending (input : Text.Bytes) := CommandLine.execute (fun _ => none) input ["repl"]
    let front := Text.encode "1 + 1\r\n" ++ [0xFF, Text.lineFeed]
    let rest := Text.encode "\n(2"
    (front = [] ∨ front.getLast? = some Text.lineFeed) ∧ (ending (front ++ rest)).code = 0 ∧
    (∃ shown,
      (ending front).transcript.stdout = shown ++ ("> " ++ "\nExited sayer repl\n") ∧
      (ending (front ++ rest)).transcript.stdout = shown ++ (ending rest).transcript.stdout) ∧
    (ending (front ++ rest)).transcript.stderr =
      (ending front).transcript.stderr ++ (ending rest).transcript.stderr := by
  intro ending front rest
  have hfront : front = [] ∨ front.getLast? = some Text.lineFeed := .inr (by decide)
  have hread : CommandLine.read ["repl"] = .ok ⟨false, .repl⟩ := rfl
  obtain ⟨hcode, hsplit, -⟩ := session_line_by_line (fun _ => none) hread
  exact ⟨hfront, hcode _, hsplit front rest hfront⟩

end SayLang
