import Thermoscape.Octets.LittleEndian

/-!
# Thermoscape.Storage.Disk

Files in directories, and the ways in which reaching one can fail.

A disk is a set of places, each a directory or a file with its content; the
root is always a directory. A path is followed name by name from the root.
Every name but the last has to lead to a directory, and what the last one leads
to decides between reading, replacing and creating. A name that is empty or a
single dot stays where it is and two dots go up, so a slash at the end of a
path asks for a directory. A reader finds out what is there instead; a writer is
told that the path names a directory, even if nothing is there.

What is where does not decide everything: a place can be closed to the one who
asks, and a device can fail. So a disk also carries the accesses that it refuses,
each with its fault. Any place can refuse any access, whether or not anything is
there: a file that cannot be created is a refusal to write where nothing is.
-/

namespace Thermoscape

/-- Why a file could not be read or written. -/
inductive FileFault where
  | notFound
  | notADirectory
  | isADirectory
  /-- Any other cause, by its text. -/
  | other (text : String)
  deriving DecidableEq

def FileFault.message : FileFault → String
  | notFound => "No such file or directory (os error 2)"
  | notADirectory => "Not a directory (os error 20)"
  | isADirectory => "Is a directory (os error 21)"
  | other text => text

inductive Node where
  | directory
  | file (content : Octets)
  deriving DecidableEq

/-- The names that lead to a place from the root. -/
abbrev Place := List String

/-- What can be asked of a place. -/
inductive Access where
  /-- To follow a name from this directory. -/
  | enter
  /-- To read what is there. -/
  | read
  /-- To create or to replace what is there. -/
  | write
  deriving DecidableEq

/-- A disk: what is where, and what it refuses. The first entry of a place counts. -/
structure Disk where
  entries : List (Place × Node)
  refusals : List ((Access × Place) × FileFault) := []
  deriving DecidableEq

namespace Disk

def empty : Disk := { entries := [] }

def get? (d : Disk) (p : Place) : Option Node :=
  if p = [] then some .directory else d.entries.lookup p

def put (d : Disk) (p : Place) (n : Node) : Disk := { d with entries := (p, n) :: d.entries }

/-- Passes unless the place refuses the access. -/
def ask (d : Disk) (access : Access) (p : Place) : Except FileFault Unit :=
  match d.refusals.lookup (access, p) with
  | some fault => .error fault
  | none => .ok ()

/-! ### Paths -/

/-- The pieces between the slashes of a path; there is always one. -/
def splitSlash : List Char → List (List Char)
  | [] => [[]]
  | c :: cs =>
    match splitSlash cs with
    | [] => [[c]]
    | p :: ps => if c = '/' then [] :: p :: ps else (c :: p) :: ps

def names (path : String) : List String := (splitSlash path.toList).map String.ofList

/-- The place that a name leads to from a directory. -/
def enter (here : Place) (name : String) : Place :=
  if name = "" ∨ name = "." then here
  else if name = ".." then here.dropLast
  else here ++ [name]

/-- The place that names lead to, given that each is followed from a directory. -/
def follow (d : Disk) : Place → List String → Except FileFault Place
  | here, [] => .ok here
  | here, name :: rest =>
    match d.get? here with
    | some .directory => do
      -- An empty name only asks that this is a directory.
      if name ≠ "" then
        d.ask .enter here
      follow d (enter here name) rest
    | some (.file _) => .error .notADirectory
    | none => .error .notFound

/-- The place that a path leads to. The empty path leads nowhere. -/
def locate (d : Disk) (path : String) : Except FileFault Place :=
  if path = "" then .error .notFound else d.follow [] (names path)

/-- The path ends in a slash, and so asks for a directory. -/
def asksForDirectory (path : String) : Bool := (names path).getLast? = some ""

/-- The place that a path leads to when the slashes at its end are left out.
Unlike with `locate`, nothing is asked of what is at that place. -/
def locateTarget (d : Disk) (path : String) : Except FileFault Place :=
  if path = "" then .error .notFound
  else d.follow [] ((names path).reverse.dropWhile (· = "")).reverse

/-! ### Files -/

/-- The content of a file. What is there is opened before it is looked at, so a
refusal comes before the complaint that it is a directory. -/
def read (d : Disk) (path : String) : Except FileFault Octets := do
  let place ← d.locate path
  match d.get? place with
  | some node =>
    d.ask .read place
    match node with
    | .file content => return content
    | .directory => throw .isADirectory
  | none => throw .notFound

/-- Writes a file, in place of an earlier one. A path that asks for a directory
is refused as one, whatever is there: no file can be made under such a name. -/
def write (d : Disk) (path : String) (content : Octets) : Except FileFault Disk := do
  let place ← d.locateTarget path
  if asksForDirectory path then
    throw .isADirectory
  match d.get? place with
  | some .directory => throw .isADirectory
  | _ =>
    d.ask .write place
    return d.put place (.file content)

/-- Makes the directories that names lead through, where they are missing. -/
def makeAlong (d : Disk) : Place → List String → Except FileFault Disk
  | _, [] => .ok d
  | here, name :: rest =>
    let next := enter here name
    match d.get? next with
    | some .directory => makeAlong d next rest
    | some (.file _) => .error .notADirectory
    | none => do
      d.ask .write next
      makeAlong (d.put next .directory) next rest

/-- Makes a directory and the directories above it, where they are missing. -/
def makeDirectory (d : Disk) (path : String) : Except FileFault Disk :=
  if path = "" then .error .notFound else d.makeAlong [] (names path)

end Disk

end Thermoscape
