import SayLang.CommandLine

/-!
# The program

Carries out a command line: everything is decided by `CommandLine.read`, `CommandLine.fileEnding`
and `Repl.State.turn`; here bytes are read and text is written.
-/

namespace SayLang.Main

/-- Writes pieces of output in their order. -/
def write (transcript : Transcript) : IO Unit := do
  let out ← IO.getStdout
  let err ← IO.getStderr
  for chunk in transcript do
    match chunk with
    | .out text => out.putStr text
    | .err text =>
      out.flush
      err.putStr text
  out.flush
  err.flush

/-- The bytes of a file, if it can be opened. -/
def contentOf (path : String) : IO (Option Text.Bytes) := do
  try
    let bytes ← IO.FS.readBinFile path
    return some bytes.data.toList
  catch _ => return none

/-- The bytes of the next line, its line feed included; none at the end of the input. -/
partial def nextLine (input : IO.FS.Stream) (before : Text.Bytes) : IO Text.Bytes := do
  let bytes ← input.read 1
  match bytes.data.toList with
  | [] => return before.reverse
  | byte :: _ =>
    if byte = Text.lineFeed then return (byte :: before).reverse
    else nextLine input (byte :: before)

/-- Holds a session: prompts, reads a line and takes a turn with it, until the session is over. -/
partial def converse (threshold : Log.Threshold) (input : IO.FS.Stream) (state : Repl.State) :
    IO Unit := do
  write [Repl.prompt]
  let line ← nextLine input []
  let (written, next) := Repl.State.turn threshold { state with input := line }
  write written
  match next with
  | none => return
  | some after => converse threshold input after

/-- Writes what a run of the program wrote, and answers its exit code. -/
def finish (ending : CommandLine.Ending) : IO UInt32 := do
  write ending.transcript
  return UInt32.ofNat ending.code

/-- Carries out a command line. -/
def carryOut (arguments : List String) : IO UInt32 := do
  match CommandLine.read arguments with
  | .error usage => finish usage.ending
  | .ok invocation =>
    match invocation.mode with
    | .file path => finish (CommandLine.fileEnding invocation.threshold path (← contentOf path))
    | .repl =>
      converse invocation.threshold (← IO.getStdin) ⟨"", []⟩
      return 0

end SayLang.Main

/-- Runs the program on its command line. -/
def main (arguments : List String) : IO UInt32 := SayLang.Main.carryOut arguments
