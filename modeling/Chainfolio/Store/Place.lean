import Chainfolio.Run
import Chainfolio.Store.FileTree
import Chainfolio.Text.Split

/-! Places in a tree of files, and paths that lead from one to another. Every part of a path but the
last has to lead to a directory that exists, also where the path turns back. -/
namespace Chainfolio

/-- Why a path leads nowhere: nothing stands there, or what stands there is of the wrong kind. -/
inductive PathFault where
  | missing
  | unusable
  deriving DecidableEq

/-- A directory seen from inside: what it holds, and the directories above it, the nearest first,
each with the name that leads on from it. -/
structure Place where
  entries : DirectoryEntries
  above : List (String × DirectoryEntries) := []

namespace Place

def nameLimit : Nat := 255

def up (p : Place) : Place :=
  match p.above with
  | [] => p
  | (name, outer) :: above => ⟨FileTree.insertChild name (.directory p.entries) outer, above⟩

def enter (p : Place) (name : String) : Except PathFault Place :=
  if nameLimit < name.utf8ByteSize then .error .unusable
  else match FileTree.child? name p.entries with
    | none => .error .missing
    | some (.file _) => .error .unusable
    | some (.directory entries) => .ok ⟨entries, (name, p.entries) :: p.above⟩

/-- The directory of a name, or the same place if there is none. -/
def down (p : Place) (name : String) : Place :=
  match FileTree.child? name p.entries with
  | some (.directory entries) => ⟨entries, (name, p.entries) :: p.above⟩
  | _ => p

def readFile (p : Place) (name : String) : Except PathFault String :=
  if nameLimit < name.utf8ByteSize then .error .unusable
  else match FileTree.child? name p.entries with
    | none => .error .missing
    | some (.directory _) => .error .unusable
    | some (.file text) => .ok text

def writeFile (p : Place) (name text : String) : Except PathFault Place :=
  match p.readFile name with
  | .error .unusable => .error .unusable
  | _ => .ok { p with entries := FileTree.insertChild name (.file text) p.entries }

/-- Enters the directory of a name, which is made if there is nothing of that name. -/
def enterOrMake (name : String) : Run Place Unit := fun p =>
  match p.enter name with
  | .ok q => (.ok (), q)
  | .error .missing =>
    (.ok (), ⟨[], (name, FileTree.insertChild name (.directory []) p.entries) :: p.above⟩)
  | .error .unusable => (.error .io, p)

def follow : List String → Place → Except PathFault Place
  | [], p => .ok p
  | part :: rest, p =>
    if part = "" ∨ part = "." then follow rest p
    else if part = ".." then follow rest p.up
    else do follow rest (← p.enter part)

/-- Goes where parts of a path lead; directories that are missing are made. -/
def followOrMake : List String → Run Place Unit
  | [] => pure ()
  | part :: rest =>
    if part = "" ∨ part = "." then followOrMake rest
    else if part = ".." then do
      Run.update up
      followOrMake rest
    else do
      enterOrMake part
      followOrMake rest

def topEntries : List (String × DirectoryEntries) → DirectoryEntries → DirectoryEntries
  | [], entries => entries
  | (name, outer) :: above, entries =>
    topEntries above (FileTree.insertChild name (.directory entries) outer)

def top (p : Place) : Place := ⟨topEntries p.above p.entries, []⟩

/-- The names that lead from the topmost directory to a place. -/
def names (p : Place) : List String := (p.above.map Prod.fst).reverse

end Place

/-- A path as it is written: the parts between its slashes. -/
structure Path where
  text : String
  parts : List String

namespace Path

def ofText (text : String) : Path := ⟨text, (Text.splitOn '/' text.toList).map String.ofList⟩

/-- Whether a path starts from the topmost directory. -/
def isAbsolute (p : Path) : Bool := p.text.toList.head? = some '/'

def parent (p : Path) : Path :=
  let parts := ((p.parts.reverse.dropWhile fun part => part = "" || part = ".").drop 1).reverse
  ⟨"/".intercalate parts, parts⟩

/-- The name of a file; what ends in a slash or in dots names none. -/
def fileName? (p : Path) : Option String :=
  p.parts.getLast?.filter fun part => part ≠ "" && part ≠ "." && part ≠ ".."

/-- Whether a path can be looked up when `room` bytes are left for it. -/
def isUsable (p : Path) (room : Nat) : Bool :=
  p.text.utf8ByteSize ≤ room && !p.text.toList.contains '\x00'

end Path

end Chainfolio
