import Bringup.Host.ExitStatus
import Bringup.Path
import Bringup.Text.Utf8

/-!
A tree of files and directories, and programs that answer by rules.

* `FileTree.resolve`: the place that a path leads to, one piece after another.
* `FileTree.read`, `FileTree.write`: the contents of a file.
* `Rule.applies`: whether a rule says what a program does on some arguments.
-/

namespace Bringup

set_option autoImplicit false

open Bringup.Text (Bytes Raw)

/-- The names on the way from the root. -/
abbrev Place := List Raw

/-- The path of a place. -/
def Place.path (place : Place) : Path := ⟨.char '/' :: [.char '/'].intercalate place⟩

/-- What a program does on some arguments. -/
structure Rule where
  /-- What the first arguments have to be, a gap standing for any; none for every list of arguments. -/
  args : Option (List (Option String)) := none
  stdout : Bytes := []
  stderr : Bytes := []
  /-- The files and directories that it makes. -/
  files : List (Place × Option Bytes) := []
  status : ExitStatus := .exited 0
deriving DecidableEq, Repr

namespace Rule

/-- The arguments start as a pattern says. -/
def starts : List (Option String) → List String → Bool
  | [], _ => true
  | _ :: _, [] => false
  | pattern :: patterns, arg :: args => pattern.all (· == arg) && starts patterns args

/-- The rule applies to some arguments. -/
def applies (r : Rule) (args : List String) : Bool := r.args.all fun pattern => starts pattern args

end Rule

/-- What stands at a place. -/
inductive Node where
  | directory
  | file (contents : Bytes)
  | program (rules : List Rule) (executable : Bool)
deriving DecidableEq, Repr

/-- The node can be read as a file. -/
def Node.isFile : Node → Bool
  | directory => false
  | _ => true

/-- What stands at which place. The root is a directory and is not listed. -/
structure FileTree where
  entries : List (Place × Node) := []
deriving DecidableEq, Repr

namespace FileTree

/-- What stands at a place. -/
def get? (t : FileTree) (place : Place) : Option Node :=
  if place = [] then some .directory else t.entries.lookup place

/-- The tree with something at a place. -/
def put (t : FileTree) (place : Place) (node : Node) : FileTree :=
  ⟨(place, node) :: t.entries.filter fun e => e.1 != place⟩

/-- The tree without a place and all below it. -/
def remove (t : FileTree) (place : Place) : FileTree :=
  ⟨t.entries.filter fun e => !place.isPrefixOf e.1⟩

/-- The tree with the directories on the way to a place. -/
def withParents (t : FileTree) (place : Place) : FileTree :=
  ((List.range place.length).map place.take).foldl
    (fun t dir => if t.get? dir = none then t.put dir .directory else t) t

/-- The tree with something at a place and the directories on the way to it. -/
def plant (t : FileTree) (place : Place) (node : Node) : FileTree := (t.withParents place).put place node

/-- Several files and directories are made. -/
def makeAll (t : FileTree) (files : List (Place × Option Bytes)) : FileTree :=
  files.foldl
    (fun t (place, contents) =>
      match contents with
      | some bytes => t.plant place (.file bytes)
      | none => if t.get? place = none then t.plant place .directory else t)
    t

/-! ## Paths -/

/-- A place that has to be a directory. -/
def needDirectory (t : FileTree) (place : Place) : Except IoError Unit :=
  match t.get? place with
  | some .directory => .ok ()
  | some _ => .error .notADirectory
  | none => .error .notFound

/-- The least number of bytes of a path that is too long. -/
def pathLimit : Nat := 4096

/-- The most bytes that a name in a directory has. -/
def nameLimit : Nat := 255

/-- The place that the pieces of a path lead to. Every place on the way is a directory; the last one
need not be there. A name that is too long fails where it is looked up. -/
def walk (t : FileTree) : Place → List Raw → Except IoError Place
  | place, [] => .ok place
  | place, piece :: pieces => do
    t.needDirectory place
    if piece.isEmpty || piece == [.char '.'] then t.walk place pieces
    else if piece == [.char '.', .char '.'] then t.walk place.dropLast pieces
    else if nameLimit < Raw.size piece then .error .nameTooLong
    else t.walk (place ++ [piece]) pieces

/-- The place that a path leads to from a directory. -/
def resolve (t : FileTree) (cwd : Place) (p : Path) : Except IoError Place :=
  if p.spelling.contains (.char '\x00') then .error .nulInPath
  else if p.spelling.isEmpty then .error .notFound
  else if pathLimit ≤ p.size then .error .nameTooLong
  else t.walk (if p.isAbsolute then [] else cwd) p.pieces

/-- What a path leads to. -/
def find (t : FileTree) (cwd : Place) (p : Path) : Except IoError (Place × Node) := do
  let place ← t.resolve cwd p
  match t.get? place with
  | some node => return (place, node)
  | none => throw .notFound

/-- A path leads to something. -/
def present (t : FileTree) (cwd : Place) (p : Path) : Bool := (t.find cwd p).isOk

/-- A path leads to a file. -/
def isFile (t : FileTree) (cwd : Place) (p : Path) : Bool :=
  match t.find cwd p with
  | .ok (_, node) => node.isFile
  | .error _ => false

/-- A path leads to a directory. -/
def isDirectory (t : FileTree) (cwd : Place) (p : Path) : Bool :=
  match t.find cwd p with
  | .ok (_, .directory) => true
  | _ => false

/-- The contents of a file. -/
def read (t : FileTree) (cwd : Place) (p : Path) : Except IoError Bytes := do
  match ← t.find cwd p with
  | (_, .file contents) => return contents
  | (_, .program _ _) => return []
  | (_, .directory) => throw .isADirectory

/-- The text of a file. -/
def readText (t : FileTree) (cwd : Place) (p : Path) : Except IoError String := do
  match Text.Utf8.decode? (← t.read cwd p) with
  | some s => return s
  | none => throw .notUtf8

/-- The tree with new contents in a file, which is made if its directory is there. -/
def write (t : FileTree) (cwd : Place) (p : Path) (contents : Bytes) : Except IoError FileTree := do
  let place ← t.resolve cwd p
  match t.get? place with
  | some .directory => throw .isADirectory
  | _ => return t.put place (.file contents)

end FileTree

end Bringup
