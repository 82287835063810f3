import Ambient.File

/-! Declarations without their descriptions, at every depth. -/
namespace Ambient

def Alias.bare (a : Alias) : Alias := { a with desc := "" }

def Variable.bare (v : Variable) : Variable := { v with desc := "" }

def Field.bare (f : Field) : Field := { f with desc := none }

def Class.bare (c : Class) : Class := { c with fields := c.fields.map Field.bare, desc := "" }

def EnumMember.bare (m : EnumMember) : EnumMember := { m with desc := none }

def Enum.bare (e : Enum) : Enum := { e with members := e.members.map EnumMember.bare, desc := "" }

def Parameter.bare (p : Parameter) : Parameter := { p with desc := none }

def Return.bare (r : Return) : Return := { r with desc := none }

def Function.bare (f : Function) : Function :=
  { f with params := f.params.map Parameter.bare, returns := f.returns.map Return.bare, desc := "" }

def Namespace.bare (n : Namespace) : Namespace where
  name := n.name
  functions := n.functions.map Function.bare
  classes := n.classes.map Class.bare
  enums := n.enums.map Enum.bare
  vars := n.vars.map Variable.bare

def File.bare (f : File) : File where
  dialect := f.dialect
  types := f.types.map Alias.bare
  enums := f.enums.map Enum.bare
  classes := f.classes.map Class.bare
  vars := f.vars.map Variable.bare
  functions := f.functions.map Function.bare
  namespaces := f.namespaces.map Namespace.bare

def Member.bare : Member → Member
  | .enum e => .enum e.bare
  | .cls c => .cls c.bare
  | .var v => .var v.bare
  | .func f => .func f.bare

def Declaration.bare : Declaration → Declaration
  | .alias a => .alias a.bare
  | .member m => .member m.bare
  | .space n => .space n.bare

theorem Namespace.members_bare (n : Namespace) : n.bare.members = n.members.map Member.bare := by
  simp only [members, bare, List.map_append, List.map_map]
  rfl

theorem File.declarations_bare (f : File) :
    f.bare.declarations = f.declarations.map Declaration.bare := by
  simp only [declarations, bare, List.map_append, List.map_map]
  rfl

end Ambient
