import SayLang.Run
import SayLang.Text.WhiteSpace
import SayLang.Transcript

/-!
# The prompt

A session takes one turn after the other until the input ends. Each turn empties the buffer that the
session keeps, shows the prompt, and reads a line into the buffer. A blank line is answered by
nothing, a line that is not text by a notice, and any other by the value or the errors of running it
without the white space around it.

> `turn_of_ne_nil`: what a turn does as long as there is input.
-/

namespace SayLang

namespace Repl

/-! ## What is written -/

/-- What stands in front of a line to be typed. -/
def prompt : Chunk := .out "> "

/-- What is said at the end of the input. -/
def farewell : Chunk := .out "\nExited sayer repl\n"

/-- What is said of a line that is not text. -/
def unreadable : Chunk := .err "Failed read line: stream did not contain valid UTF-8\n"

/-- The answer to a source text: its value, or what was wrong with it. -/
def answer (threshold : Log.Threshold) (source : String) : Transcript :=
  let ran := run source
  Transcript.ofRecords threshold ran.records ++
    match ran.result with
    | .ok object => [.out (object.value.describe ++ "\n")]
    | .error failure => [.err (failure.message ++ "\n")]

/-- The answer to what was read. -/
def respond (threshold : Log.Threshold) (text : String) : Transcript :=
  match Text.trim text.toList with
  | [] => []
  | source => answer threshold (String.ofList source)

/-! ## Reading -/

/-- A session between two turns. -/
structure State where
  /-- What was read last. -/
  buffer : String
  /-- The input still to come. -/
  input : Text.Bytes

/-- What reading a line comes to. -/
inductive Reading where
  /-- The input has ended. -/
  | ended
  /-- There was a line, but it is not text. -/
  | failed
  /-- There was a line, and it is in the buffer. -/
  | read
deriving DecidableEq

namespace State

/-- Empties the buffer. -/
def clear (state : State) : State := { state with buffer := "" }

/-- Reads the next line into the buffer, behind what is there. A line that is not text is passed all
the same and leaves the buffer as it is. -/
def readLine (state : State) : Reading × State :=
  if state.input = [] then (.ended, state)
  else
    let cut := Text.cutLine state.input
    match Text.decode? cut.1 with
    | none => (.failed, { state with input := cut.2 })
    | some text => (.read, ⟨state.buffer ++ text, cut.2⟩)

/-- One turn behind its prompt: what it writes, and the session after it unless that is over. -/
def turn (threshold : Log.Threshold) (state : State) : Transcript × Option State :=
  match state.clear.readLine with
  | (.ended, _) => ([farewell], none)
  | (.failed, after) => ([unreadable], some after)
  | (.read, after) => (respond threshold after.buffer, some after)

/-- At the end of the input the session is over. -/
theorem turn_of_nil (threshold : Log.Threshold) {state : State} (h : state.input = []) :
    state.turn threshold = ([farewell], none) := by
  unfold turn readLine
  rw [if_pos (show state.clear.input = [] from h)]

/-- Else the first line is taken off the input and answered, whatever was in the buffer. -/
theorem turn_of_ne_nil (threshold : Log.Threshold) {state : State} (h : state.input ≠ []) :
    state.turn threshold =
      match Text.decode? (Text.cutLine state.input).1 with
      | none => ([unreadable], some ⟨"", (Text.cutLine state.input).2⟩)
      | some text => (respond threshold text, some ⟨text, (Text.cutLine state.input).2⟩) := by
  unfold turn readLine
  rw [if_neg (show state.clear.input ≠ [] from h)]
  cases hdecode : Text.decode? (Text.cutLine state.input).1 with
  | none => simp [clear, hdecode]
  | some text => simp [clear, hdecode]

/-- A turn that is not the last one leaves less of the input. -/
theorem turn_shorter {threshold : Log.Threshold} {state after : State} {written : Transcript}
    (h : state.turn threshold = (written, some after)) :
    after.input.length < state.input.length := by
  by_cases hinput : state.input = []
  · rw [turn_of_nil threshold hinput] at h
    cases h
  · have hlt := Text.length_cutLine_snd_lt hinput
    rw [turn_of_ne_nil threshold hinput] at h
    split at h <;> cases h <;> exact hlt

/-- The session from here on: a prompt and a turn, until the last one. -/
def converse (threshold : Log.Threshold) (state : State) : Transcript :=
  match _h : state.turn threshold with
  | (written, none) => prompt :: written
  | (written, some after) => prompt :: (written ++ after.converse threshold)
termination_by state.input.length
decreasing_by exact turn_shorter _h

end State

/-- A whole session over the bytes of the input. -/
def session (threshold : Log.Threshold) (input : Text.Bytes) : Transcript :=
  State.converse threshold ⟨"", input⟩

end Repl

end SayLang
