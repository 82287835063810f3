import Ambient.Error

/-! The two demands on names: none is blank, and no two with one owner are equal. -/
namespace Ambient

/-- A name with nothing but blanks counts as empty. -/
def isBlankName (name : String) : Bool := Text.isAllBlank name.toList

def requireName (kind : Kind) (name : String) : Except Error Unit :=
  if isBlankName name then .error (.emptyName kind) else .ok ()

/-- The first name that is among those before it or the names already seen. -/
def firstRepeat? (seen : List String) : List String → Option String
  | [] => none
  | n :: ns => if n ∈ seen then some n else firstRepeat? (n :: seen) ns

def requireUnique (owner : Owner) (names : List String) : Except Error Unit :=
  match firstRepeat? [] names with
  | some n => .error (.duplicate owner n)
  | none => .ok ()

/-- Every item has a name, and no two of them the same. -/
def requireItems (kind : Kind) (owner : Owner) (names : List String) : Except Error Unit := do
  names.forM (requireName kind)
  requireUnique owner names

end Ambient
