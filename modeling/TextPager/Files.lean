import TextPager.Text.Number
import TextPager.Text.Utf8

/-!
# Files

The program asks four things of a file system: whether a path names a directory, whether it names
anything, the bytes of a file, and a new empty file. `FileTree` answers them from a tree of files
that is a value: directories may be named by `.` and `..`, and a slash at the end of a path asks
for a directory.

**Results.**
* `FileTree.node?_put`: a file that was put is there, and nothing else has changed.
-/
namespace TextPager

/-- Why a file cannot be had. -/
inductive FileError where
  | notFound
  | notADirectory
  | isADirectory
  | nameTooLong
  | nulInName
  /-- Any other reason, in the system's words. -/
  | other (reason : Text)
  deriving DecidableEq, Repr

def FileError.message : FileError → Text
  | notFound => "No such file or directory (os error 2)".toList
  | notADirectory => "Not a directory (os error 20)".toList
  | isADirectory => "Is a directory (os error 21)".toList
  | nameTooLong => "File name too long (os error 36)".toList
  | nulInName => "file name contained an unexpected NUL byte".toList
  | other reason => reason

/-- What the program asks of a file system. -/
structure FileSystem (m : Type → Type) where
  isDirectory : Text → m Bool
  pathExists : Text → m Bool
  read : Text → m (Except FileError Bytes)
  /-- Makes an empty file, in place of a file that is there. -/
  create : Text → m (Except FileError Unit)

/-- What a path can name. -/
inductive Node where
  | file (contents : Bytes)
  | directory
  deriving DecidableEq, Repr

/-- A location is the names on the way from the root. -/
abbrev Location := List Text

/-- Files and directories by their locations. -/
structure FileTree where
  nodes : List (Location × Node)
  /-- Where relative paths begin. -/
  current : Location

/-- Bytes of the longest name of a file. -/
def maxNameBytes : Nat := 255

namespace FileTree

/-- What is at a location. The root and whatever lies above a node are directories. -/
def node? (t : FileTree) (l : Location) : Option Node :=
  match t.nodes.lookup l with
  | some n => some n
  | none =>
    if l.isEmpty || t.nodes.any (fun n => l.isPrefixOf n.1) || l.isPrefixOf t.current then
      some .directory
    else none

/-- Puts a file at a location. -/
def put (t : FileTree) (l : Location) (contents : Bytes) : FileTree :=
  { t with nodes := (l, .file contents) :: t.nodes }

/-- The names of a path. -/
def names (path : Text) : List Text := path.piecesAt '/'

/-- Where a path begins. -/
def origin (t : FileTree) (path : Text) : Location :=
  if path.head? = some '/' then [] else t.current

/-- A name that leads to another location. -/
def isProper (name : Text) : Bool := !name.isEmpty && name != ['.'] && name != ['.', '.']

/-- A name is too long for a file. -/
def isTooLong (name : Text) : Bool := maxNameBytes < (String.ofList name).utf8ByteSize

/-- The location that names lead to. Every location on the way is a directory. -/
def walk (t : FileTree) : Location → List Text → Except FileError Location
  | l, [] => .ok l
  | l, name :: rest =>
    match t.node? l with
    | none => .error .notFound
    | some (.file _) => .error .notADirectory
    | some .directory =>
      if name == ['.', '.'] then walk t l.dropLast rest
      else if !isProper name then walk t l rest
      else if isTooLong name then .error .nameTooLong
      else walk t (l ++ [name]) rest

/-- What a path names. -/
def find (t : FileTree) (path : Text) : Except FileError Node :=
  if path.contains '\x00' then .error .nulInName
  else if path.isEmpty then .error .notFound
  else do
    let l ← t.walk (t.origin path) (names path)
    match t.node? l with
    | some n => .ok n
    | none => .error .notFound

def read (t : FileTree) (path : Text) : Except FileError Bytes := do
  match ← t.find path with
  | .file contents => .ok contents
  | .directory => .error .isADirectory

/-- The location for a new file. The directory it lies in is there; a path that can only name a
directory is none for a file. -/
def place (t : FileTree) (path : Text) : Except FileError Location :=
  if path.contains '\x00' then .error .nulInName
  else if path.isEmpty then .error .notFound
  else do
    let all := names path
    let proper := all.reverse.dropWhile List.isEmpty
    match proper with
    | [] => .error .isADirectory
    | last :: before =>
      let l ← t.walk (t.origin path) before.reverse
      match t.node? l with
      | none => .error .notFound
      | some (.file _) => .error .notADirectory
      | some .directory =>
        if proper.length ≠ all.length ∨ !isProper last then .error .isADirectory
        else if isTooLong last then .error .nameTooLong
        else match t.node? (l ++ [last]) with
          | some .directory => .error .isADirectory
          | _ => .ok (l ++ [last])

/-- The tree with an empty file at a path. -/
def create (t : FileTree) (path : Text) : Except FileError FileTree := do
  return t.put (← t.place path) []

/-- The file system of a tree that is state. -/
def fileSystem : FileSystem (StateM FileTree) where
  isDirectory path := do return (← get).find path matches .ok .directory
  pathExists path := do return (← get).find path matches .ok _
  read path := do return (← get).read path
  create path := do
    match (← get).create path with
    | .ok t => set t; return .ok ()
    | .error e => return .error e

/-- A file that was put is there. -/
theorem node?_put (t : FileTree) (l : Location) (contents : Bytes) :
    (t.put l contents).node? l = some (.file contents) := by
  simp [node?, put]

end FileTree

end TextPager
