import Ambient.File

/-!
Shared declarations. A workspace holds declarations in cells; a group is a namespace that refers to
the cells of its members, so that it always shows what they hold now. While a cell is held for a
change nobody else can read it.
-/
namespace Ambient

/-- A namespace whose members are cells, in the order in which they were added. -/
structure Group where
  name : String
  members : List Nat := []
deriving DecidableEq

inductive Cell
  | member (m : Member)
  | alias (a : Alias)
  | group (g : Group)
deriving DecidableEq

structure Workspace where
  cells : List Cell := []
  /-- Handles on cells; the last one of a name counts. -/
  handles : List (String × Nat) := []
  /-- Cells held for a change. -/
  held : List Nat := []

def Sight.kind : Sight → Kind
  | .free m => m.kind
  | .held kind => kind

namespace Workspace

def cell? (w : Workspace) (r : Nat) : Option Cell := w.cells[r]?

/-- The member in a cell. -/
def member? (w : Workspace) (r : Nat) : Option Member :=
  match w.cell? r with
  | some (.member m) => some m
  | _ => none

/-- The member in a cell as others see it. -/
def sight? (w : Workspace) (r : Nat) : Option Sight :=
  (w.member? r).map fun m => if r ∈ w.held then .held m.kind else .free m

/-- The kinds of members in the order in which they are checked and written. -/
def memberKinds : List Kind := [.enum, .cls, .var, .func]

/-- The members of a group as others see them now. -/
def sights (w : Workspace) (g : Group) : List Sight :=
  memberKinds.flatMap fun kind => (g.members.filterMap w.sight?).filter (·.kind = kind)

def renderCell (w : Workspace) (d : Dialect) (scope : Scope) : Cell → Except Error String
  | .member m => m.render d scope
  | .alias a => .ok (a.render d scope)
  | .group g => Namespace.renderSights g.name (w.sights g) d scope

def validateCell (w : Workspace) : Cell → Except Error Unit
  | .member m => m.validate
  | .alias a => a.validate
  | .group g => Namespace.validateSights g.name (w.sights g)

/-- Puts a declaration into a new cell. -/
def insert (w : Workspace) (c : Cell) : Workspace × Nat :=
  ({ w with cells := w.cells ++ [c] }, w.cells.length)

/-- Changes what a cell holds. -/
def set (w : Workspace) (r : Nat) (c : Cell) : Workspace := { w with cells := w.cells.set r c }

def bind (w : Workspace) (handle : String) (r : Nat) : Workspace :=
  { w with handles := (handle, r) :: w.handles }

def resolve? (w : Workspace) (handle : String) : Option Nat := w.handles.lookup handle

def hold (w : Workspace) (r : Nat) : Workspace := { w with held := r :: w.held }

def release (w : Workspace) (r : Nat) : Workspace := { w with held := w.held.erase r }

end Workspace
end Ambient
