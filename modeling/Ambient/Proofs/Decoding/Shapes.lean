import Ambient.Manifest.Load
import Ambient.Proofs.Decoding.Records

/-!
The shape of a manifest: which keys its tables have and what stands under them. A reader of a shape
is put together from the readers of its parts, so that what holds of all readers is shown once for
each way to put them together.
-/
namespace Ambient.Manifest

/-- What may stand at a place of a manifest. -/
inductive Shape
  /-- No table and no list. -/
  | scalar
  | literal
  /-- Whatever a literal value holds beside its expression. -/
  | inner
  /-- A word, or a table with such a word as its one key. -/
  | choice (words : List String)
  | list (item : Shape)
  | record (fields : List (String × Shape))

namespace Shape

/-- The keys that a table of this shape may have. -/
def keys : Shape → List String
  | .literal => [rawKey]
  | .choice words => words
  | .record fields => fields.map Prod.fst
  | .scalar | .inner | .list _ => []

/-- The shape of what stands under a key. -/
def under (key : String) : Shape → Shape
  | .literal => if key = rawKey then .scalar else .inner
  | .inner => .inner
  | .record fields => (fields.lookup key).getD .scalar
  | .scalar | .choice _ | .list _ => .scalar

/-- The shape of the items of a list. -/
def item : Shape → Shape
  | .list shape => shape
  | .literal | .inner => .inner
  | .scalar | .choice _ | .record _ => .scalar

/-- The shape stands for all that is inside too. -/
structure Everywhere (shape : Shape) : Prop where
  under : ∀ key, shape.under key = shape
  item : shape.item = shape

theorem everywhere_scalar : Everywhere .scalar := ⟨fun _ => rfl, rfl⟩

theorem everywhere_inner : Everywhere .inner := ⟨fun _ => rfl, rfl⟩

end Shape

namespace Node

def keys : Node → List String
  | .table es _ => es.map Entry.name
  | _ => []

def isSequence : Node → Bool
  | .sequence .. => true
  | _ => false

variable (P : Shape → Node → Prop)

mutual

/-- The node and all nodes in it, however deep, satisfy `P` with the shapes of their places. -/
def Throughout (shape : Shape) : Node → Prop
  | .sequence items closing =>
    P shape (.sequence items closing) ∧ itemsThroughout shape.item items
  | .table es closing => P shape (.table es closing) ∧ entriesThroughout shape es
  | n => P shape n

def itemsThroughout (shape : Shape) : List Node → Prop
  | [] => True
  | n :: ns => n.Throughout shape ∧ itemsThroughout shape ns

def entriesThroughout (shape : Shape) : List Entry → Prop
  | [] => True
  | e :: es => entryThroughout shape e ∧ entriesThroughout shape es

def entryThroughout (shape : Shape) : Entry → Prop
  | .mk (.named key) n => n.Throughout (shape.under key)
  | .mk (.odd _) _ => True

end

variable {P}

theorem itemsThroughout_iff {shape : Shape} {items : List Node} :
    itemsThroughout P shape items ↔ ∀ n ∈ items, n.Throughout P shape := by
  induction items with
  | nil => simp [itemsThroughout]
  | cons n ns ih => simp [itemsThroughout, ih]

theorem entriesThroughout_iff {shape : Shape} {es : List Entry} :
    entriesThroughout P shape es ↔
      ∀ key n, .mk (.named key) n ∈ es → n.Throughout P (shape.under key) := by
  induction es with
  | nil => simp [entriesThroughout]
  | cons e es ih =>
    rcases e with ⟨key | p, n⟩ <;> simp [entriesThroughout, entryThroughout, ih, or_imp, forall_and]

theorem throughout_sequence {shape : Shape} {items : List Node} {closing : Option Problem} :
    (Node.sequence items closing).Throughout P shape ↔
      P shape (.sequence items closing) ∧ ∀ n ∈ items, n.Throughout P shape.item := by
  rw [Throughout, itemsThroughout_iff]

theorem throughout_table {shape : Shape} {es : List Entry} {closing : Option Problem} :
    (Node.table es closing).Throughout P shape ↔ P shape (.table es closing) ∧
      ∀ key n, .mk (.named key) n ∈ es → n.Throughout P (shape.under key) := by
  rw [Throughout, entriesThroughout_iff]

theorem Throughout.here {shape : Shape} {n : Node} (h : n.Throughout P shape) : P shape n := by
  cases n with
  | sequence => exact h.1
  | table => exact h.1
  | _ => exact h

/-- What holds of a node holds of all that is inside. -/
structure Inherited (Q : Node → Prop) : Prop where
  item : ∀ {items : List Node} {closing : Option Problem}, Q (.sequence items closing) →
    ∀ n ∈ items, Q n
  entry : ∀ {es : List Entry} {closing : Option Problem}, Q (.table es closing) →
    ∀ key n, .mk (.named key) n ∈ es → Q n

theorem inherited_true : Inherited fun _ => True := ⟨fun _ _ _ => trivial, fun _ _ _ _ => trivial⟩

mutual

theorem throughout_of_everywhere {shape : Shape} {Q : Node → Prop} (hs : shape.Everywhere)
    (hQ : Inherited Q) (hP : ∀ n, Q n → P shape n) : (n : Node) → Q n → n.Throughout P shape
  | .sequence items _, h => by
    rw [Throughout, hs.item]
    exact ⟨hP _ h, itemsThroughout_of_everywhere hs hQ hP items (hQ.item h)⟩
  | .table es _, h => by
    rw [Throughout]
    exact ⟨hP _ h, entriesThroughout_of_everywhere hs hQ hP es (hQ.entry h)⟩
  | .null, h | .boolean _, h | .integer _, h | .float _, h | .noInteger, h | .hugeFloat, h
  | .text _, h | .datetime, h | .broken .., h => hP _ h

theorem itemsThroughout_of_everywhere {shape : Shape} {Q : Node → Prop} (hs : shape.Everywhere)
    (hQ : Inherited Q) (hP : ∀ n, Q n → P shape n) :
    (ns : List Node) → (∀ n ∈ ns, Q n) → itemsThroughout P shape ns
  | [], _ => trivial
  | n :: ns, h => by
    obtain ⟨hn, hns⟩ := List.forall_mem_cons.mp h
    exact ⟨throughout_of_everywhere hs hQ hP n hn, itemsThroughout_of_everywhere hs hQ hP ns hns⟩

theorem entriesThroughout_of_everywhere {shape : Shape} {Q : Node → Prop} (hs : shape.Everywhere)
    (hQ : Inherited Q) (hP : ∀ n, Q n → P shape n) :
    (es : List Entry) → (∀ key n, .mk (.named key) n ∈ es → Q n) → entriesThroughout P shape es
  | [], _ => trivial
  | .mk (.named key) n :: es, h => by
    refine ⟨?_, entriesThroughout_of_everywhere hs hQ hP es fun k m he => h k m (.tail _ he)⟩
    rw [entryThroughout, hs.under]
    exact throughout_of_everywhere hs hQ hP n (h key n List.mem_cons_self)
  | .mk (.odd _) _ :: es, h =>
    ⟨trivial, entriesThroughout_of_everywhere hs hQ hP es fun k m he => h k m (.tail _ he)⟩

end

end Node

/-- No record is written as a list of its fields. -/
def Tabular : Shape → Node → Prop
  | .record _, n => n.isSequence = false
  | _, _ => True

/-! Readers. -/

mutual

/-- The reader takes nodes of this shape, in both formats. -/
inductive Reads : Shape → {α : Type} → (Format → Reader α) → Prop
  | text : Reads .scalar fun _ => readText
  | flag : Reads .scalar fun _ => readFlag
  | type : Reads .scalar fun _ => readType
  | literal : Reads .literal fun _ => readValue
  | dialect : Reads (.choice dialectNames) readDialect
  | optional {shape : Shape} {α : Type} {read : Format → Reader α} (h : Reads shape read) :
    Reads shape fun format => readOptional (read format)
  | list {shape : Shape} {α : Type} {read : Format → Reader α} (h : Reads shape read) :
    Reads (.list shape) fun format => readList (read format)
  | record {fields : List (String × Shape)} {σ : Type} {s : Format → Schema σ}
      (h : ReadsFields fields fun format => (s format).slots) (commutes : ∀ f, (s f).Commutes)
      (blank : (s .toml).blank = (s .json).blank) :
    Reads (.record fields) fun format => (s format).read format

/-- The fields of a record, in the order of its schema. -/
inductive ReadsFields : List (String × Shape) → {σ : Type} → (Format → List (Slot σ)) → Prop
  | nil {σ : Type} : ReadsFields [] fun _ => ([] : List (Slot σ))
  | cons {key : String} {shape : Shape} {fields : List (String × Shape)} {α σ : Type}
      {read : Format → Reader α} {set : α → σ → σ} {required : Bool} {slots : Format → List (Slot σ)}
      (h : Reads shape read) (hs : ReadsFields fields slots) :
    ReadsFields ((key, shape) :: fields) fun format =>
      ⟨key, fun n r => (set · r) <$> read format n, required⟩ :: slots format

end

/-! The shapes of records. -/

def parameterShape : Shape := .record [("name", .scalar), ("type", .scalar), ("default", .literal),
  ("optional", .scalar), ("desc", .scalar)]

def returnShape : Shape := .record [("name", .scalar), ("type", .scalar), ("desc", .scalar)]

def fieldShape : Shape :=
  .record [("name", .scalar), ("type", .scalar), ("optional", .scalar), ("desc", .scalar)]

def memberShape : Shape := .record [("name", .scalar), ("value", .literal), ("desc", .scalar)]

def aliasShape : Shape := .record [("name", .scalar), ("type", .scalar), ("desc", .scalar)]

def enumShape : Shape := .record [("name", .scalar), ("constant", .scalar),
  ("members", .list memberShape), ("desc", .scalar)]

def classShape : Shape := .record [("name", .scalar), ("parent", .scalar),
  ("fields", .list fieldShape), ("desc", .scalar)]

def variableShape : Shape := .record [("name", .scalar), ("constant", .scalar), ("value", .literal),
  ("type", .scalar), ("desc", .scalar)]

def functionShape : Shape := .record [("name", .scalar), ("params", .list parameterShape),
  ("returns", .list returnShape), ("desc", .scalar)]

def namespaceShape : Shape := .record [("name", .scalar), ("functions", .list functionShape),
  ("classes", .list classShape), ("enums", .list enumShape), ("variables", .list variableShape)]

def fileShape : Shape := .record [("dialect", .choice dialectNames), ("types", .list aliasShape),
  ("enums", .list enumShape), ("classes", .list classShape), ("variables", .list variableShape),
  ("functions", .list functionShape), ("namespaces", .list namespaceShape)]

/-! Readers of records. -/

theorem reads_parameter : Reads parameterShape fun format => parameterSchema.read format := by
  refine .record (s := fun _ => parameterSchema) ?_ (fun _ => ?_) rfl
  · exact .cons .text <| .cons (.optional .type) <| .cons .literal <| .cons .flag <|
      .cons (.optional .text) .nil
  · simp [Schema.Commutes, parameterSchema, requiredSlot, optionalSlot]

theorem reads_return : Reads returnShape fun format => returnSchema.read format := by
  refine .record (s := fun _ => returnSchema) ?_ (fun _ => ?_) rfl
  · exact .cons (.optional .text) <| .cons (.optional .type) <| .cons (.optional .text) .nil
  · simp [Schema.Commutes, returnSchema, optionalSlot]

theorem reads_field : Reads fieldShape fun format => fieldSchema.read format := by
  refine .record (s := fun _ => fieldSchema) ?_ (fun _ => ?_) rfl
  · exact .cons .text <| .cons (.optional .type) <| .cons .flag <| .cons (.optional .text) .nil
  · simp [Schema.Commutes, fieldSchema, requiredSlot, optionalSlot]

theorem reads_member : Reads memberShape fun format => memberSchema.read format := by
  refine .record (s := fun _ => memberSchema) ?_ (fun _ => ?_) rfl
  · exact .cons .text <| .cons .literal <| .cons (.optional .text) .nil
  · simp [Schema.Commutes, memberSchema, requiredSlot, optionalSlot]

theorem reads_alias : Reads aliasShape fun format => aliasSchema.read format := by
  refine .record (s := fun _ => aliasSchema) ?_ (fun _ => ?_) rfl
  · exact .cons .text <| .cons .type <| .cons .text .nil
  · simp [Schema.Commutes, aliasSchema, requiredSlot, optionalSlot]

theorem reads_enum : Reads enumShape fun format => (enumSchema format).read format := by
  refine .record (s := enumSchema) ?_ (fun format => ?_) rfl
  · exact .cons .text <| .cons .flag <| .cons (.list reads_member) <| .cons .text .nil
  · simp [Schema.Commutes, enumSchema, requiredSlot, optionalSlot]

theorem reads_class : Reads classShape fun format => (classSchema format).read format := by
  refine .record (s := classSchema) ?_ (fun format => ?_) rfl
  · exact .cons .text <| .cons (.optional .text) <| .cons (.list reads_field) <| .cons .text .nil
  · simp [Schema.Commutes, classSchema, requiredSlot, optionalSlot]

theorem reads_variable : Reads variableShape fun format => variableSchema.read format := by
  refine .record (s := fun _ => variableSchema) ?_ (fun _ => ?_) rfl
  · exact .cons .text <| .cons .flag <| .cons .literal <| .cons .type <| .cons .text .nil
  · simp [Schema.Commutes, variableSchema, requiredSlot, optionalSlot]

theorem reads_function : Reads functionShape fun format => (functionSchema format).read format := by
  refine .record (s := functionSchema) ?_ (fun format => ?_) rfl
  · exact .cons .text <| .cons (.list reads_parameter) <| .cons (.list reads_return) <|
      .cons .text .nil
  · simp [Schema.Commutes, functionSchema, requiredSlot, optionalSlot]

theorem reads_namespace :
    Reads namespaceShape fun format => (namespaceSchema format).read format := by
  refine .record (s := namespaceSchema) ?_ (fun format => ?_) rfl
  · exact .cons .text <| .cons (.list reads_function) <| .cons (.list reads_class) <|
      .cons (.list reads_enum) <| .cons (.list reads_variable) .nil
  · simp [Schema.Commutes, namespaceSchema, requiredSlot, optionalSlot]

theorem reads_file : Reads fileShape fun format => (fileSchema format).read format := by
  refine .record (s := fileSchema) ?_ (fun format => ?_) rfl
  · exact .cons (.optional .dialect) <| .cons (.list reads_alias) <| .cons (.list reads_enum) <|
      .cons (.list reads_class) <| .cons (.list reads_variable) <| .cons (.list reads_function) <|
      .cons (.list reads_namespace) .nil
  · simp [Schema.Commutes, fileSchema, optionalSlot]

/-! Documents. -/

/-- A text decodes when its tree can be read and nothing follows the tree. -/
theorem decode_eq_ok_iff {format : Format} {source : String} {f : File} :
    decode format source = .ok f ↔ (document format source).trailing = false ∧
      (fileSchema format).read format (document format source).root = .ok f := by
  have hd : decode format source = ((fileSchema format).read format (document format source).root >>=
      fun x => if (document format source).trailing then .error .malformed else .ok x) := rfl
  rw [hd]
  cases (fileSchema format).read format (document format source).root <;>
    cases (document format source).trailing <;> simp [bind, Except.bind]

end Ambient.Manifest
