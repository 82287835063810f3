/-! Directory trees, and the access to files that a program needs. -/
namespace Ambient

/-- Why a path does not lead to a file, or to a directory. -/
inductive ReadFailure
  | notFound
  | isDirectory
  /-- A file stands where a directory is wanted. -/
  | notDirectory
  /-- The path holds the character NUL. -/
  | invalidPath
  /-- The path or a name in it. -/
  | tooLong
  | invalidText
deriving DecidableEq, Repr

/-- Access to files by path. -/
structure Disk (m : Type → Type) where
  read : String → m (Except ReadFailure String)
  /-- Makes a directory and those around it; what is there already stays. -/
  makeDirectories : String → m (Except ReadFailure Unit)
  /-- Writes a text in place of what the file holds; the directory around it has to be there. -/
  write : String → String → m (Except ReadFailure Unit)

namespace Path

/-- The parts of a path between slashes. -/
def parts (path : String) : List (List Char) :=
  path.toList.foldr
    (fun c ps => if c = '/' then [] :: ps else match ps with
      | [] => [[c]]
      | p :: ps => (c :: p) :: ps)
    [[]]

/-- The names of the steps along a path. -/
def names (path : String) : List String := (parts path).map String.ofList

/-- Paths from the root begin with a slash, others start in the working directory. -/
def isAbsolute (path : String) : Bool := path.toList.head? = some '/'

/-- The bytes that a name may have. -/
def maxNameSize : Nat := 255

/-- The bytes that a path may have. -/
def maxSize : Nat := 4095

/-- What is wrong with a path whatever files there are. -/
def check (path : String) : Except ReadFailure Unit :=
  if path.isEmpty then .error .notFound
  else if path.toList.any fun c => c.toNat = 0 then .error .invalidPath
  else if maxSize < path.utf8ByteSize then .error .tooLong
  else .ok ()

/-- The last part of a path. -/
def fileName (path : String) : List Char := (parts path).getLastD []

/-- A part that leads no step further. -/
def isIdle (part : List Char) : Bool := part = [] || part = ['.']

def trimIdle (ps : List (List Char)) : List (List Char) := (ps.reverse.dropWhile isIdle).reverse

/-- The parts before the last step, if there is a step. -/
def outer? (ps : List (List Char)) : Option (List (List Char)) :=
  match trimIdle ps with
  | [] => none
  | ps => some (trimIdle ps.dropLast)

def ofParts (ps : List (List Char)) : String := String.ofList (['/'].intercalate ps)

/-- The path of the directory around what a path leads to; the root has none, nor has a mere name. -/
def parent? (path : String) : Option String :=
  match parts path with
  | [] :: ps => (outer? ps).map fun ps => if ps.isEmpty then "/" else ofParts ([] :: ps)
  | ['.'] :: ps => (outer? ps).map fun ps => ofParts (['.'] :: ps)
  | ps => (outer? ps).bind fun ps => if ps.isEmpty then none else some (ofParts ps)

/-- What follows the last point of the file's name, unless nothing comes before that point. -/
def extension? (path : String) : Option (List Char) :=
  let name := fileName path
  let before := (name.reverse.dropWhile (· ≠ '.')).drop 1
  if before.isEmpty || name = ['.', '.'] then none
  else some (name.reverse.takeWhile (· ≠ '.')).reverse

def isJson (path : String) : Bool :=
  (extension? path).any fun e => e.map Char.toLower = "json".toList

end Path

inductive Content
  | text (s : String)
  /-- Bytes that are no text. -/
  | binary
  | directory
deriving DecidableEq

/-- What a file with these bytes holds. -/
def Content.ofBytes (bytes : ByteArray) : Content :=
  match String.fromUTF8? bytes with
  | some s => .text s
  | none => .binary

/-- A place in a tree: the names on the way to it from the root, innermost first. -/
abbrev FileTree.Place := List String

/--
A tree of files and the working directory in it. That directory and those around it, up to the root, are
there whatever the nodes say.
-/
structure FileTree where
  home : FileTree.Place
  nodes : List (FileTree.Place × Content)

namespace FileTree

/-- A working directory with nothing in it. -/
def empty : FileTree := ⟨["work"], []⟩

/-- Whether a place is the working directory or lies around it. -/
def isAround (t : FileTree) (place : Place) : Bool := place.isSuffixOf t.home

def lookup (t : FileTree) (place : Place) : Option Content :=
  if t.isAround place then some .directory else t.nodes.lookup place

def put (t : FileTree) (place : Place) (c : Content) : FileTree :=
  { t with nodes := (place, c) :: t.nodes.filter (·.1 ≠ place) }

/-- One step along a path: a directory has to be there to step from. Out of the root leads no step. -/
def step (t : FileTree) (part : String) (place : Place) : Except ReadFailure Place :=
  match t.lookup place with
  | none => .error .notFound
  | some (.text _) | some .binary => .error .notDirectory
  | some .directory =>
    if Path.maxNameSize < part.utf8ByteSize then .error .tooLong
    else if part = "" || part = "." then .ok place
    else if part = ".." then .ok place.tail
    else .ok (part :: place)

/-- Where a path starts. -/
def start (t : FileTree) (path : String) : Place := if Path.isAbsolute path then [] else t.home

def walk (t : FileTree) (place : Place) (names : List String) : Except ReadFailure Place :=
  names.foldlM (fun place part => t.step part place) place

/-- The place that a path leads to. -/
def resolve (t : FileTree) (path : String) : Except ReadFailure Place := do
  Path.check path
  t.walk (t.start path) (Path.names path)

def read (t : FileTree) (path : String) : Except ReadFailure String := do
  match t.lookup (← t.resolve path) with
  | some (.text s) => .ok s
  | some .binary => .error .invalidText
  | some .directory => .error .isDirectory
  | none => .error .notFound

/-- Makes the directories that the names lead through, as far as it gets. -/
def makeAlong (t : FileTree) (place : Place) : List String → Except ReadFailure Unit × FileTree
  | [] => (.ok (), t)
  | part :: parts =>
    match t.step part place with
    | .error e => (.error e, t)
    | .ok next =>
      match t.lookup next with
      | none => (t.put next .directory).makeAlong next parts
      | some .directory => t.makeAlong next parts
      | some _ => (.error .notDirectory, t)

/-- Makes the directory at a path and those around it. -/
def makeDirectories (t : FileTree) (path : String) : Except ReadFailure Unit × FileTree :=
  match Path.check path with
  | .error e => (.error e, t)
  | .ok () => t.makeAlong (t.start path) (Path.names path)

/-- Writes a content to the file at a path. -/
def write (t : FileTree) (path : String) (c : Content) : Except ReadFailure FileTree := do
  let place ← t.resolve path
  match t.lookup place with
  | some .directory => .error .isDirectory
  | _ => .ok (t.put place c)

def insertDirectory (t : FileTree) (path : String) : Except ReadFailure FileTree :=
  match t.makeDirectories path with
  | (.error e, _) => .error e
  | (.ok (), t) => .ok t

/-- Makes the directory around what a path leads to. -/
def insertAround (t : FileTree) (path : String) : Except ReadFailure FileTree :=
  match Path.parent? path with
  | none => .ok t
  | some parent => t.insertDirectory parent

/-- Writes a content to the file at a path once the directory around it is made. -/
def insert (t : FileTree) (path : String) (c : Content) : Except ReadFailure FileTree := do
  (← t.insertAround path).write path c

/-- The texts in the working directory that were not at the same place before, by their paths there. -/
def changes (before after : FileTree) : List (String × String) :=
  after.nodes.filterMap fun
    | (place, .text s) =>
      if before.lookup place = some (.text s) || !after.home.isSuffixOf place then none
      else some ("/".intercalate (place.take (place.length - after.home.length)).reverse, s)
    | _ => none

/-- What has become of a change, and the tree that is left: without it the one from before. -/
def settle (t : FileTree) : Except ReadFailure FileTree → Except ReadFailure Unit × FileTree
  | .error e => (.error e, t)
  | .ok left => (.ok (), left)

/-- Access to the files of a tree that is kept as a state. -/
def disk : Disk (StateM FileTree) where
  read path := do return (← get).read path
  makeDirectories path := modifyGet fun t => t.makeDirectories path
  write path text := modifyGet fun t => t.settle (t.write path (.text text))

end FileTree
end Ambient
