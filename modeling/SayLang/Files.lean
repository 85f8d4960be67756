import SayLang.Text.Bytes

/-!
# A tree of files

Files held in memory, each at a place: the names of the directories on the way and then its own
name. A path is followed component by component from the top of the tree. An empty component and `.`
stay where they are, `..` goes up, and any other component goes down to that name.

Writing a file makes every place on the way a directory. Reading one asks for that: only a directory
has components at all, so a path through a file, or with a slash after one, leads nowhere. Absolute
paths, paths above the top, and paths with a null character lead nowhere either.

> `isDirectory_of_mem_onTheWay`: whatever a path that was written passes is a directory.
-/

namespace SayLang

/-- Files by their places. Of two files at one place the later counts. -/
structure Files where
  /-- The places on the way to the files. -/
  directories : List (List String)
  /-- The places of the files and their contents, in the order of writing. -/
  entries : List (List String × Text.Bytes)

namespace Files

/-- The parts between slashes; there is always at least one. -/
def split : List Char → List (List Char)
  | [] => [[]]
  | '/' :: rest => [] :: split rest
  | c :: rest =>
    match split rest with
    | [] => [[c]]
    | part :: others => (c :: part) :: others

/-- The components of a path. -/
def components (path : String) : List String := (split path.toList).map String.ofList

/-- Where a component leads to. At the top, `..` stays there. -/
def step (here : List String) (component : String) : List String :=
  match component with
  | "" | "." => here
  | ".." => here.dropLast
  | _ => here ++ [component]

/-- The place that components lead to. -/
def destination : List String → List String → List String
  | here, [] => here
  | here, component :: rest => destination (step here component) rest

/-- The places that components pass before they arrive. -/
def onTheWay : List String → List String → List (List String)
  | _, [] => []
  | here, component :: rest => here :: onTheWay (step here component) rest

/-- The files at the given paths. -/
def ofList (files : List (String × Text.Bytes)) : Files :=
  ⟨files.flatMap fun file => onTheWay [] (components file.1),
    files.map fun file => (destination [] (components file.1), file.2)⟩

/-- The content of the file at a place. -/
def at? (files : Files) (place : List String) : Option Text.Bytes :=
  (files.entries.reverse.find? fun entry => entry.1 = place).map Prod.snd

/-- Is there a directory at the place? The top is always one. -/
def isDirectory (files : Files) (place : List String) : Bool :=
  place = [] || files.directories.contains place

/-- Whatever a path that was written passes is a directory. -/
theorem isDirectory_of_mem_onTheWay {files : List (String × Text.Bytes)}
    {file : String × Text.Bytes} (hfile : file ∈ files) {place : List String}
    (hplace : place ∈ onTheWay [] (components file.1)) : (ofList files).isDirectory place = true := by
  have hmem : place ∈ (ofList files).directories := List.mem_flatMap.mpr ⟨file, hfile, hplace⟩
  simp [isDirectory, hmem]

/-- Follows components from a place, as long as there is a directory to follow them from. -/
def follow (files : Files) : List String → List String → Option (List String)
  | here, [] => some here
  | here, component :: rest =>
    if files.isDirectory here ∧ ¬ (here = [] ∧ component = "..") then
      files.follow (step here component) rest
    else none

/-- The content of the file that a path leads to. -/
def read? (files : Files) (path : String) : Option Text.Bytes :=
  if path.toList.contains '\x00' ∨ path.toList.head? = some '/' then none
  else (files.follow [] (components path)).bind files.at?

end Files

end SayLang
