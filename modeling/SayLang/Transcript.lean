import SayLang.Log

/-!
# Output of the program

What the program writes, in pieces that each go to one of two streams. The order of the pieces is
the order of writing; each stream shows only its own.

> `stdout_append`, `stderr_append`: what a stream shows of one output after another is what it shows
> of the first and then what it shows of the second.
-/

namespace SayLang

/-- A piece of output. -/
inductive Chunk where
  /-- Text on the standard output. -/
  | out (text : String)
  /-- Text on the standard error. -/
  | err (text : String)
deriving DecidableEq

/-- The text of a piece on the standard output. -/
def Chunk.out? : Chunk → Option String
  | out text => some text
  | err _ => none

/-- The text of a piece on the standard error. -/
def Chunk.err? : Chunk → Option String
  | out _ => none
  | err text => some text

/-- Pieces of output, in the order of writing. -/
abbrev Transcript : Type := List Chunk

namespace Transcript

/-- All text on the standard output. -/
def stdout (transcript : Transcript) : String := String.join (transcript.filterMap Chunk.out?)

/-- All text on the standard error. -/
def stderr (transcript : Transcript) : String := String.join (transcript.filterMap Chunk.err?)

@[simp] theorem stdout_nil : stdout [] = "" := rfl

@[simp] theorem stdout_out (text : String) (rest : Transcript) :
    stdout (.out text :: rest) = text ++ stdout rest :=
  String.join_cons

@[simp] theorem stdout_err (text : String) (rest : Transcript) :
    stdout (.err text :: rest) = stdout rest := rfl

@[simp] theorem stderr_nil : stderr [] = "" := rfl

@[simp] theorem stderr_out (text : String) (rest : Transcript) :
    stderr (.out text :: rest) = stderr rest := rfl

@[simp] theorem stderr_err (text : String) (rest : Transcript) :
    stderr (.err text :: rest) = text ++ stderr rest :=
  String.join_cons

@[simp] theorem stdout_append (first second : Transcript) :
    stdout (first ++ second) = stdout first ++ stdout second := by
  simp [stdout]

@[simp] theorem stderr_append (first second : Transcript) :
    stderr (first ++ second) = stderr first ++ stderr second := by
  simp [stderr]

/-- The records that a threshold lets through, as they are written out. -/
def ofRecords (threshold : Log.Threshold) (records : List Log.Record) : Transcript :=
  (Log.filter threshold records).map fun record => .err record.line

/-- The log goes to the standard error alone. -/
@[simp] theorem stdout_ofRecords (threshold : Log.Threshold) (records : List Log.Record) :
    stdout (ofRecords threshold records) = "" := by
  have hnone : (ofRecords threshold records).filterMap Chunk.out? = [] :=
    List.filterMap_eq_nil_iff.mpr fun _ hmem => by
      obtain ⟨_, _, rfl⟩ := List.mem_map.mp hmem
      rfl
  simp [stdout, hnone]

end Transcript

end SayLang
