import SayLang.Repl

/-!
# The command line

    sayer [-v] file PATH
    sayer [-v] repl
    sayer help [COMMAND]

The arguments are read from left to right, and the first thing that is wrong with them, or the first
request for help or for the version, decides. There are two levels: in front of the command and
behind it. The flag for more detail may be given once on each. After `--` nothing is a flag any
more. Commands are recognised by their full name only.
-/

namespace SayLang.CommandLine

/-- What to do. -/
inductive Mode where
  /-- Run a file. -/
  | file (path : String)
  /-- Hold a session at the prompt. -/
  | repl
deriving DecidableEq

/-- A command line that was understood. -/
structure Invocation where
  /-- Is more detail wanted in the log? -/
  verbose : Bool
  /-- What to do. -/
  mode : Mode
deriving DecidableEq

/-- What the log shows: warnings, or everything up to the steps of a run when more is wanted. -/
def Invocation.threshold (invocation : Invocation) : Log.Threshold :=
  some (if invocation.verbose then .debug else .warn)

/-- Why nothing is run. -/
inductive Usage where
  /-- Help was asked for. -/
  | help
  /-- The version was asked for. -/
  | version
  /-- There are no arguments. -/
  | noArguments
  /-- There is no command. -/
  | noCommand
  /-- There is no path. -/
  | noPath
  /-- The word in the place of the command is none. -/
  | unknownCommand (word : String)
  /-- The flag is unknown, or the argument is one too many. -/
  | unknownArgument (argument : String)
  /-- The path is empty. -/
  | emptyPath
  /-- The flag was already given on this level. -/
  | repeatedFlag
  /-- The flag takes no value. -/
  | needlessValue (argument : String)
deriving DecidableEq

/-- The exit code: asking for help or the version is no mistake. -/
def Usage.exitCode : Usage → Nat
  | help | version => 0
  | _ => 2

/-! ## Flags -/

/-- The flags. -/
inductive Flag where
  /-- More detail in the log. -/
  | verbose
  /-- Help. -/
  | help
  /-- The version. -/
  | version
deriving DecidableEq

/-- The place of an argument. -/
inductive Level where
  /-- In front of the command. -/
  | outer
  /-- Behind the command. -/
  | inner
deriving DecidableEq

/-- The flag that a long name stands for. Only the outer level knows the version. -/
def Flag.ofName? (level : Level) (name : String) : Option Flag :=
  match name, level with
  | "verbose", _ => some verbose
  | "help", _ => some help
  | "version", .outer => some version
  | _, _ => none

/-- The flag that a letter stands for. Only the outer level knows the version. -/
def Flag.ofLetter? (level : Level) (letter : Char) : Option Flag :=
  match letter, level with
  | 'v', _ => some verbose
  | 'h', _ => some help
  | 'V', .outer => some version
  | _, _ => none

/-- What an argument is by its form. -/
inductive Form where
  /-- Two dashes: no flags after it. -/
  | separator
  /-- One or more flags, each recognised or not. -/
  | flags (flags : List (Except Usage Flag))
  /-- Any other word. -/
  | word

/-- The form of an argument. After one dash each letter is a flag; after two dashes the whole name
is, and a value after an equals sign is needless. A dash alone is a word. -/
def Form.ofArgument (level : Level) (argument : String) : Form :=
  match argument.toList with
  | ['-', '-'] => separator
  | '-' :: '-' :: long =>
    let name := long.takeWhile (· ≠ '=')
    match Flag.ofName? level (String.ofList name) with
    | none => flags [.error (.unknownArgument argument)]
    | some flag =>
      if name = long then flags [.ok flag] else flags [.error (.needlessValue argument)]
  | '-' :: letter :: letters =>
    flags ((letter :: letters).map fun letter =>
      match Flag.ofLetter? level letter with
      | none => .error (.unknownArgument argument)
      | some flag => .ok flag)
  | _ => word

/-- The effect of one flag, where `verbose` says whether more detail was already asked for on this
level. -/
def Flag.apply (verbose : Bool) : Flag → Except Usage Bool
  | .verbose => if verbose then .error .repeatedFlag else .ok true
  | .help => .error .help
  | .version => .error .version

/-- The effect of flags from left to right. Each known flag first makes sure that what stands before
it is in order. -/
def applyFlags (before : Except Usage Unit) : Bool → List (Except Usage Flag) → Except Usage Bool
  | verbose, [] => .ok verbose
  | _, .error usage :: _ => .error usage
  | verbose, .ok flag :: rest => do
    before
    applyFlags before (← flag.apply verbose) rest

/-! ## Behind the command -/

/-- Is the path given so far in order? -/
def checkPath : Option String → Except Usage Unit
  | some "" => .error .emptyPath
  | _ => .ok ()

/-- The arguments of the command that runs a file: one path, and flags. -/
def readFile (verbose flagsOver : Bool) (path : Option String) :
    List String → Except Usage (Bool × String)
  | [] => do
    checkPath path
    match path with
    | none => .error .noPath
    | some path => .ok (verbose, path)
  | argument :: rest =>
    let asWord : Except Usage (Bool × String) :=
      match path with
      | none => readFile verbose flagsOver (some argument) rest
      | some _ => .error (.unknownArgument argument)
    if flagsOver then asWord
    else
      match Form.ofArgument .inner argument with
      | .separator => readFile verbose true path rest
      | .flags flags => do
        readFile (← applyFlags (checkPath path) verbose flags) flagsOver path rest
      | .word => asWord

/-- The arguments of the command for the prompt: flags alone. -/
def readRepl (verbose flagsOver : Bool) : List String → Except Usage Bool
  | [] => .ok verbose
  | argument :: rest =>
    if flagsOver then .error (.unknownArgument argument)
    else
      match Form.ofArgument .inner argument with
      | .separator => readRepl verbose true rest
      | .flags flags => do readRepl (← applyFlags (.ok ()) verbose flags) flagsOver rest
      | .word => .error (.unknownArgument argument)

/-! ## In front of the command -/

/-- The commands. -/
inductive Command where
  /-- Run a file. -/
  | file
  /-- Hold a session. -/
  | repl
  /-- Show help. -/
  | help
deriving DecidableEq

/-- The command with the given name. -/
def Command.ofWord? : String → Option Command
  | "file" => some file
  | "repl" => some repl
  | "help" => some help
  | _ => none

/-- Help for a command, which has no commands of its own; or for the whole program. -/
def readHelp : List String → Usage
  | [] => .help
  | word :: rest =>
    match Command.ofWord? word, rest with
    | none, _ => .unknownCommand word
    | some _, [] => .help
    | some _, second :: _ => .unknownCommand second

/-- The arguments of a command, where `verbose` was read in front of it. -/
def readCommand (verbose : Bool) (arguments : List String) : Command → Except Usage Invocation
  | .file => do
    let (inner, path) ← readFile false false none arguments
    return ⟨verbose || inner, .file path⟩
  | .repl => do
    let inner ← readRepl false false arguments
    return ⟨verbose || inner, .repl⟩
  | .help => .error (readHelp arguments)

/-- The arguments from the start of the line. -/
def readOuter (verbose flagsOver : Bool) : List String → Except Usage Invocation
  | [] => .error (if verbose then .noCommand else .noArguments)
  | argument :: rest =>
    if flagsOver then
      match Command.ofWord? argument with
      | some _ => .error (.unknownArgument argument)
      | none => .error (.unknownCommand argument)
    else
      match Form.ofArgument .outer argument with
      | .separator => readOuter verbose true rest
      | .flags flags => do readOuter (← applyFlags (.ok ()) verbose flags) flagsOver rest
      | .word =>
        match Command.ofWord? argument with
        | some command => readCommand verbose rest command
        | none => .error (.unknownCommand argument)

/-- Reads a command line, without the name of the program. -/
def read (arguments : List String) : Except Usage Invocation := readOuter false false arguments

/-! ## Carrying it out -/

/-- How a run of the program ends: its exit code and what it wrote. -/
structure Ending where
  /-- The exit code. -/
  code : Nat
  /-- What it wrote, in order. -/
  transcript : Transcript

/-- How to call the program. -/
def synopsis : String :=
  "Usage: sayer [-v|--verbose] file PATH\n       sayer [-v|--verbose] repl\n" ++
    "       sayer help [file|repl]\n       sayer -h|--help\n       sayer -V|--version\n"

/-- What is wrong with a command line. -/
def Usage.message : Usage → String
  | help | version => ""
  | noArguments => "there are no arguments"
  | noCommand => "there is no command"
  | noPath => "there is no path"
  | unknownCommand word => "no command is called '" ++ word ++ "'"
  | unknownArgument argument => "the argument '" ++ argument ++ "' is not expected"
  | emptyPath => "the path is empty"
  | repeatedFlag => "the flag for more detail is given twice"
  | needlessValue argument => "the flag in '" ++ argument ++ "' takes no value"

/-- How the program ends when nothing is run. -/
def Usage.ending (usage : Usage) : Ending :=
  match usage with
  | help => ⟨usage.exitCode, [.out synopsis]⟩
  | version => ⟨usage.exitCode, [.out "sayer 0.1.0\n"]⟩
  | _ => ⟨usage.exitCode, [.err ("error: " ++ usage.message ++ "\n\n" ++ synopsis)]⟩

/-- How the program ends after running a file, given its bytes if it can be opened: the value on the
standard output, or the failure on the standard error. -/
def fileEnding (threshold : Log.Threshold) (path : String) (content : Option Text.Bytes) : Ending :=
  let ran := runFile path content
  let log := Transcript.ofRecords threshold ran.records
  match ran.result with
  | .ok object => ⟨0, log ++ [.out (object.value.describe ++ "\n")]⟩
  | .error failure => ⟨1, log ++ [.err ("Failed run file: " ++ failure.message ++ "\n")]⟩

/-- How the program ends, given what can be read at a path and from the standard input. -/
def execute (contentAt : String → Option Text.Bytes) (input : Text.Bytes)
    (arguments : List String) : Ending :=
  match read arguments with
  | .error usage => usage.ending
  | .ok invocation =>
    match invocation.mode with
    | .file path => fileEnding invocation.threshold path (contentAt path)
    | .repl => ⟨0, Repl.session invocation.threshold input⟩

end SayLang.CommandLine
