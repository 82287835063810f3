import Ambient.Workspace

/-! Changes to a single declaration. -/
namespace Ambient

inductive Edit
  | setName (name : String)
  | setDesc (desc : String)
  | setType (type : TypeRef)
  | setConstant (constant : Bool)
  | setValue (value : Option Value)
  | setParent (parent : Option String)
  | addParam (p : Parameter)
  /-- Removes the parameter at an index, if there is one; likewise for fields and members. -/
  | clearParam (index : Nat)
  | clearLastParam
  | clearParams
  | addReturn (r : Return)
  | clearReturns
  | addField (f : Field)
  | clearField (index : Nat)
  | clearFields
  | addMember (m : EnumMember)
  | clearMember (index : Nat)
  | clearMembers

namespace Edit

def onFunction (e : Edit) (f : Function) : Option Function :=
  match e with
  | .setName n => some { f with name := n }
  | .setDesc s => some { f with desc := s }
  | .addParam p => some { f with params := f.params ++ [p] }
  | .clearParam i => some { f with params := f.params.eraseIdx i }
  | .clearLastParam => some { f with params := f.params.dropLast }
  | .clearParams => some { f with params := [] }
  | .addReturn r => some { f with returns := f.returns ++ [r] }
  | .clearReturns => some { f with returns := [] }
  | _ => none

def onClass (e : Edit) (c : Class) : Option Class :=
  match e with
  | .setName n => some { c with name := n }
  | .setDesc s => some { c with desc := s }
  | .setParent p => some { c with parent := p }
  | .addField f => some { c with fields := c.fields ++ [f] }
  | .clearField i => some { c with fields := c.fields.eraseIdx i }
  | .clearFields => some { c with fields := [] }
  | _ => none

def onEnum (e : Edit) (n : Enum) : Option Enum :=
  match e with
  | .setName s => some { n with name := s }
  | .setDesc s => some { n with desc := s }
  | .setConstant b => some { n with constant := b }
  | .addMember m => some { n with members := n.members ++ [m] }
  | .clearMember i => some { n with members := n.members.eraseIdx i }
  | .clearMembers => some { n with members := [] }
  | _ => none

def onVariable (e : Edit) (v : Variable) : Option Variable :=
  match e with
  | .setName n => some { v with name := n }
  | .setDesc s => some { v with desc := s }
  | .setType t => some { v with type := t }
  | .setConstant b => some { v with constant := b }
  | .setValue x => some { v with value := x }
  | _ => none

def onAlias (e : Edit) (a : Alias) : Option Alias :=
  match e with
  | .setName n => some { a with name := n }
  | .setDesc s => some { a with desc := s }
  | .setType t => some { a with type := t }
  | _ => none

def onGroup (e : Edit) (g : Group) : Option Group :=
  match e with
  | .setName n => some { g with name := n }
  | _ => none

/-- The declaration after a change, if the change fits its kind. -/
def apply (e : Edit) : Cell → Option Cell
  | .member (.func f) => (e.onFunction f).map (.member ∘ .func)
  | .member (.cls c) => (e.onClass c).map (.member ∘ .cls)
  | .member (.enum n) => (e.onEnum n).map (.member ∘ .enum)
  | .member (.var v) => (e.onVariable v).map (.member ∘ .var)
  | .alias a => (e.onAlias a).map .alias
  | .group g => (e.onGroup g).map .group

end Edit
end Ambient
