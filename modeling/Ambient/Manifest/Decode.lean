import Ambient.File
import Ambient.Manifest.Schema

/-! Declarations as documents hold them. -/
namespace Ambient.Manifest

/-! Values and types. -/

/-- An integer is kept if 64 bits hold it with its sign, else it becomes a float. -/
def integerValue (n : Int) : Value :=
  if isSignedWord n then .int (Int64.ofInt n) else .float (Binary64.ofInt n)

def rawKey : String := "raw"

/-- The one expression under the key for expressions; other keys do not count. -/
def rawExpression? (entries : List Entry) : Option String :=
  let raws := entries.filter fun
    | .mk (.named key) _ => key = rawKey
    | _ => false
  match raws with
  | [.mk _ (.text s)] => some s
  | _ => none

/-- The literal value that a node without problems denotes. -/
def value? : Node → Option Value
  | .null => some .nil
  | .boolean b => some (.bool b)
  | .integer n => some (integerValue n)
  | .float x => some (.float x)
  | .text s => some (.string s)
  | .table entries _ => (rawExpression? entries).map .raw
  | .noInteger | .hugeFloat | .datetime | .sequence .. | .broken .. => none

/-- A literal value. The node is looked through before its kind is. -/
def readValue : Reader Value := fun n =>
  match n.problem?, value? n with
  | some p, _ => .error p
  | none, some v => .ok v
  | none, none => .error (.data .noValue)

/-- Types in documents are always named ones. -/
def readType : Reader TypeRef := fun n => .named <$> readText n

/-! Dialects. -/

def dialectNames : List String := ["lua", "ts", "typescript"]

def dialectOfName (name : String) : Except Problem Dialect :=
  match Dialect.ofWord? name.toList with
  | some d => .ok d
  | none => .error (.data (.unknownVariant name dialectNames))

def readUnit : Reader Unit
  | .null => .ok ()
  | n => .error (n.mismatch "unit")

/-- A dialect in JSON is a name, or a table with the name as its one key and null under it. -/
def readJsonDialect : Reader Dialect
  | .text name => dialectOfName name
  | .table (.mk (.odd p) _ :: _) _ => .error p
  | .table (.mk (.named name) n :: rest) closing => do
    let d ← dialectOfName name
    readUnit n
    match rest, closing with
    | [], none => .ok d
    | [], some p => .error p
    | _ :: _, _ => .error .malformed
  | .broken .nothing p | .broken .text p => .error p
  | _ => .error .malformed

/-- The value under a dialect as a key has to be empty. -/
def readEmpty : Reader Unit
  | .table [] _ | .sequence [] _ => .ok ()
  | .table .. => .error (.data (.wantedEmpty "table"))
  | .sequence .. => .error (.data (.wantedEmpty "array"))
  | .integer _ | .noInteger => .error (.data (.wantedTable "integer"))
  | .float _ | .hugeFloat => .error (.data (.wantedTable "float"))
  | .boolean _ => .error (.data (.wantedTable "boolean"))
  | .text _ => .error (.data (.wantedTable "string"))
  | .datetime => .error (.data (.wantedTable "datetime"))
  | .null => .error (.data (.wantedTable "null"))
  | .broken _ p => .error p

/-- A dialect in TOML is a name, or a table with the name as its one key and nothing under it. -/
def readTomlDialect : Reader Dialect
  | .text name => dialectOfName name
  | .table [.mk (.named name) n] _ => do
    let d ← dialectOfName name
    readEmpty n
    return d
  | .table entries _ => .error (.data (.wantedOneElement !entries.isEmpty))
  | _ => .error (.data .wantedStringOrTable)

def readDialect : Format → Reader Dialect
  | .json => readJsonDialect
  | .toml => readTomlDialect

/-! Records. -/

def parameterSchema : Schema Parameter where
  name := "Parameter"
  blank := { name := "" }
  slots := [
    requiredSlot "name" readText fun x r => { r with name := x },
    optionalSlot "type" (readOptional readType) fun x r => { r with type := x },
    optionalSlot "default" readValue fun x r => { r with default := some x },
    optionalSlot "optional" readFlag fun x r => { r with optional := x },
    optionalSlot "desc" (readOptional readText) fun x r => { r with desc := x }]

def returnSchema : Schema Return where
  name := "ReturnSpec"
  blank := {}
  slots := [
    optionalSlot "name" (readOptional readText) fun x r => { r with name := x },
    optionalSlot "type" (readOptional readType) fun x r => { r with type := x },
    optionalSlot "desc" (readOptional readText) fun x r => { r with desc := x }]

def fieldSchema : Schema Field where
  name := "Field"
  blank := { name := "" }
  slots := [
    requiredSlot "name" readText fun x r => { r with name := x },
    optionalSlot "type" (readOptional readType) fun x r => { r with type := x },
    optionalSlot "optional" readFlag fun x r => { r with optional := x },
    optionalSlot "desc" (readOptional readText) fun x r => { r with desc := x }]

def memberSchema : Schema EnumMember where
  name := "EnumMember"
  blank := { name := "" }
  slots := [
    requiredSlot "name" readText fun x r => { r with name := x },
    optionalSlot "value" readValue fun x r => { r with value := some x },
    optionalSlot "desc" (readOptional readText) fun x r => { r with desc := x }]

def aliasSchema : Schema Alias where
  name := "TypeConfig"
  blank := { name := "" }
  slots := [
    requiredSlot "name" readText fun x r => { r with name := x },
    optionalSlot "type" readType fun x r => { r with type := x },
    optionalSlot "desc" readText fun x r => { r with desc := x }]

def enumSchema (format : Format) : Schema Enum where
  name := "EnumConfig"
  blank := { name := "" }
  slots := [
    requiredSlot "name" readText fun x r => { r with name := x },
    optionalSlot "constant" readFlag fun x r => { r with constant := x },
    optionalSlot "members" (readList (memberSchema.read format)) fun x r => { r with members := x },
    optionalSlot "desc" readText fun x r => { r with desc := x }]

def classSchema (format : Format) : Schema Class where
  name := "ClassConfig"
  blank := { name := "" }
  slots := [
    requiredSlot "name" readText fun x r => { r with name := x },
    optionalSlot "parent" (readOptional readText) fun x r => { r with parent := x },
    optionalSlot "fields" (readList (fieldSchema.read format)) fun x r => { r with fields := x },
    optionalSlot "desc" readText fun x r => { r with desc := x }]

def variableSchema : Schema Variable where
  name := "VariableConfig"
  blank := { name := "" }
  slots := [
    requiredSlot "name" readText fun x r => { r with name := x },
    optionalSlot "constant" readFlag fun x r => { r with constant := x },
    optionalSlot "value" readValue fun x r => { r with value := some x },
    optionalSlot "type" readType fun x r => { r with type := x },
    optionalSlot "desc" readText fun x r => { r with desc := x }]

def functionSchema (format : Format) : Schema Function where
  name := "FunctionConfig"
  blank := { name := "" }
  slots := [
    requiredSlot "name" readText fun x r => { r with name := x },
    optionalSlot "params" (readList (parameterSchema.read format)) fun x r => { r with params := x },
    optionalSlot "returns" (readList (returnSchema.read format)) fun x r => { r with returns := x },
    optionalSlot "desc" readText fun x r => { r with desc := x }]

def namespaceSchema (format : Format) : Schema Namespace where
  name := "NamespaceConfig"
  blank := { name := "" }
  slots := [
    requiredSlot "name" readText fun x r => { r with name := x },
    optionalSlot "functions" (readList ((functionSchema format).read format))
      fun x r => { r with functions := x },
    optionalSlot "classes" (readList ((classSchema format).read format))
      fun x r => { r with classes := x },
    optionalSlot "enums" (readList ((enumSchema format).read format))
      fun x r => { r with enums := x },
    optionalSlot "variables" (readList (variableSchema.read format))
      fun x r => { r with vars := x }]

def fileSchema (format : Format) : Schema File where
  name := "DeclFile"
  blank := {}
  slots := [
    optionalSlot "dialect" (readOptional (readDialect format)) fun x r => { r with dialect := x },
    optionalSlot "types" (readList (aliasSchema.read format)) fun x r => { r with types := x },
    optionalSlot "enums" (readList ((enumSchema format).read format))
      fun x r => { r with enums := x },
    optionalSlot "classes" (readList ((classSchema format).read format))
      fun x r => { r with classes := x },
    optionalSlot "variables" (readList (variableSchema.read format))
      fun x r => { r with vars := x },
    optionalSlot "functions" (readList ((functionSchema format).read format))
      fun x r => { r with functions := x },
    optionalSlot "namespaces" (readList ((namespaceSchema format).read format))
      fun x r => { r with namespaces := x }]

/-! Documents. -/

/-- What a document holds; what follows it comes last. -/
def Document.read (doc : Document) (read : Reader α) : Except Problem α := do
  let x ← read doc.root
  if doc.trailing then .error .malformed else .ok x

end Ambient.Manifest
