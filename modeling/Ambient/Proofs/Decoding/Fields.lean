import Ambient.Proofs.Decoding.Records
import Mathlib.Data.List.Forall2

/-!
What stands for a field of a record: the value under its key, or the item in its place in a list of
values. It alone decides the part of the record that the field sets.
-/
namespace Ambient.Manifest

variable {σ β : Type}

/-- Filling in the field sets this part of the record to what is read. -/
def Slot.Fills (slot : Slot σ) (read : Reader β) (get : σ → β) : Prop :=
  ∀ ⦃n : Node⦄ ⦃r r' : σ⦄, slot.fill n r = .ok r' → read n = .ok (get r')

/-- Filling in the field leaves this part of the record alone. -/
def Slot.Keeps (slot : Slot σ) (get : σ → β) : Prop :=
  ∀ ⦃n : Node⦄ ⦃r r' : σ⦄, slot.fill n r = .ok r' → get r' = get r

section Set

variable {α : Type} {key : String} {required : Bool} {read : Reader α} {set : α → σ → σ} {get : σ → β}

theorem Slot.fills_of_set {read' : Reader β}
    (h : ∀ n x r, read n = .ok x → read' n = .ok (get (set x r))) :
    Slot.Fills ⟨key, fun n r => (set · r) <$> read n, required⟩ read' get := by
  intro n r r' hr
  obtain ⟨x, hx, rfl⟩ := map_eq_ok_iff.mp hr
  exact h n x r hx

@[simp] theorem Slot.keeps_of_set (h : ∀ x r, get (set x r) = get r) :
    Slot.Keeps ⟨key, fun n r => (set · r) <$> read n, required⟩ get := by
  intro n r r' hr
  obtain ⟨x, -, rfl⟩ := map_eq_ok_iff.mp hr
  exact h x r

/-- A literal value that may be missing. -/
def readSome : Reader (Option Value) := fun n => some <$> readValue n

theorem Slot.fills_some {set : Value → σ → σ} {get : σ → Option Value}
    (h : ∀ x r, get (set x r) = some x) :
    Slot.Fills ⟨key, fun n r => (set · r) <$> readValue n, required⟩ readSome get :=
  fills_of_set fun n x r hx => by
    rw [readSome, hx, h]
    rfl

end Set

/-- The entries that a record is read from. -/
def Node.entries : Node → List Entry
  | .table es _ => es
  | .datetime => [.mk (.named datetimeKey) (.text "")]
  | _ => []

/-- A part of a record is what is read from the node that stands for it, or as before without one. -/
def Decides (read : Reader β) (node? : Option Node) (before x : β) : Prop :=
  match node? with
  | some n => read n = .ok x
  | none => x = before

namespace Schema

/-- What stands for the field with this key. -/
def fieldNode? (s : Schema σ) (key : String) : Node → Option Node
  | .sequence items _ => items[s.keys.idxOf key]?
  | n => (n.entries.find? (·.name == key)).map Entry.value

/-- The field with this key sets this part of the record, and no other field does. -/
structure Sets (s : Schema σ) (key : String) (read : Reader β) (get : σ → β) : Prop where
  mem : key ∈ s.keys
  nodup : s.keys.Nodup
  fills : ∀ slot ∈ s.slots, slot.key = key → slot.Fills read get
  keeps : ∀ slot ∈ s.slots, slot.key ≠ key → slot.Keeps get

variable {s : Schema σ} {key : String} {read : Reader β} {get : σ → β} (h : s.Sets key read get)

include h

/-! Tables. -/

theorem Sets.enter_own {e : Entry} {r r' : σ} (hr : s.enter r e = some r') (he : e.name = key) :
    read e.value = .ok (get r') := by
  obtain ⟨slot, hslot, -, hfill⟩ := exists_slot_of_enter hr
  obtain ⟨hmem, hkey⟩ := mem_slots_of_slot? hslot
  exact h.fills slot hmem (hkey.trans he) hfill

theorem Sets.enter_other {e : Entry} {r r' : σ} (hr : s.enter r e = some r') (he : e.name ≠ key) :
    get r' = get r := by
  obtain ⟨slot, hslot, -, hfill⟩ := exists_slot_of_enter hr
  obtain ⟨hmem, hkey⟩ := mem_slots_of_slot? hslot
  exact h.keeps slot hmem (hkey ▸ he) hfill

theorem Sets.enterAll {es : List Entry} {r r' : σ} (hr : s.enterAll (some r) es = some r')
    (hn : (es.map Entry.name).Nodup) :
    Decides read ((es.find? (·.name == key)).map Entry.value) (get r) (get r') := by
  induction es generalizing r with
  | nil =>
    obtain rfl := Option.some.inj hr
    exact rfl
  | cons e es ih =>
    obtain ⟨hnew, hn⟩ := List.nodup_cons.mp hn
    rw [enterAll_cons, Option.bind_some] at hr
    cases he : s.enter r e with
    | none => simp [he] at hr
    | some r₁ =>
      rw [he] at hr
      have hrest := ih hr hn
      by_cases hk : e.name = key
      · have hnone : es.find? (·.name == key) = none := by
          rw [List.find?_eq_none]
          intro e' he' heq
          exact hnew (List.mem_map.mpr ⟨e', he', (beq_iff_eq.mp heq).trans hk.symm⟩)
        rw [hnone] at hrest
        have hr' : get r' = get r₁ := hrest
        rw [List.find?_cons_of_pos (by simpa using hk)]
        exact hr' ▸ h.enter_own he hk
      · rw [List.find?_cons_of_neg (by simpa using hk), ← h.enter_other he hk]
        exact hrest

/-! Lists of values. -/

theorem Sets.readItems_other {format : Format} {closing : Option Problem} {index : Nat} {r r' : σ}
    {slots : List (Slot σ)} {items : List Node} (hsub : ∀ slot ∈ slots, slot ∈ s.slots)
    (hkey : ∀ slot ∈ slots, slot.key ≠ key)
    (hr : s.readItems format closing index r slots items = .ok r') : get r' = get r := by
  induction slots generalizing index r items with
  | nil =>
    obtain ⟨_, -, hr⟩ := bind_eq_ok_iff.mp hr
    rw [Except.ok.inj hr]
  | cons slot slots ih =>
    obtain ⟨hslot, hsub⟩ := List.forall_mem_cons.mp hsub
    obtain ⟨hne, hkey⟩ := List.forall_mem_cons.mp hkey
    cases items with
    | nil =>
      obtain ⟨_, -, hr⟩ := bind_eq_ok_iff.mp hr
      split at hr
      · cases hr
      · exact ih hsub hkey hr
    | cons n ns =>
      obtain ⟨r₁, hfill, hr⟩ := bind_eq_ok_iff.mp hr
      rw [ih hsub hkey hr, h.keeps slot hslot hne hfill]

theorem Sets.readItems {format : Format} {closing : Option Problem} {index : Nat} {r r' : σ}
    {slots : List (Slot σ)} {items : List Node} (hsub : ∀ slot ∈ slots, slot ∈ s.slots)
    (hkey : key ∈ slots.map Slot.key) (hn : (slots.map Slot.key).Nodup)
    (hr : s.readItems format closing index r slots items = .ok r') :
    Decides read items[(slots.map Slot.key).idxOf key]? (get r) (get r') := by
  induction slots generalizing index r items with
  | nil => cases hkey
  | cons slot slots ih =>
    obtain ⟨hslot, hsub⟩ := List.forall_mem_cons.mp hsub
    obtain ⟨hnew, hn⟩ := List.nodup_cons.mp hn
    rw [List.map_cons, List.idxOf_cons]
    by_cases hk : slot.key = key
    · have hother : ∀ slot ∈ slots, slot.key ≠ key := fun slot' hs he =>
        hnew (List.mem_map.mpr ⟨slot', hs, he.trans hk.symm⟩)
      rw [hk, beq_self_eq_true, cond_true]
      cases items with
      | nil =>
        obtain ⟨_, -, hr⟩ := bind_eq_ok_iff.mp hr
        split at hr
        · cases hr
        · exact h.readItems_other hsub hother hr
      | cons n ns =>
        obtain ⟨r₁, hfill, hr⟩ := bind_eq_ok_iff.mp hr
        have hr' := h.readItems_other hsub hother hr
        exact hr' ▸ h.fills slot hslot hk hfill
    · have hkey : key ∈ slots.map Slot.key := (List.mem_cons.mp hkey).resolve_left (Ne.symm hk)
      rw [beq_eq_false_iff_ne.mpr hk, cond_false]
      cases items with
      | nil =>
        obtain ⟨_, -, hr⟩ := bind_eq_ok_iff.mp hr
        split at hr
        · cases hr
        · simpa using ih hsub hkey hn hr
      | cons n ns =>
        obtain ⟨r₁, hfill, hr⟩ := bind_eq_ok_iff.mp hr
        rw [List.getElem?_cons_succ, ← h.keeps slot hslot hk hfill]
        exact ih hsub hkey hn hr

/-- A part of a record is decided by what stands for its field. -/
theorem Sets.decides {format : Format} {n : Node} {r : σ} (hr : s.read format n = .ok r) :
    Decides read (s.fieldNode? key n) (get s.blank) (get r) := by
  cases n with
  | table es closing =>
    obtain ⟨-, hn, hall, -⟩ := readTable_eq_ok_iff.mp hr
    exact h.enterAll hall hn
  | datetime =>
    obtain ⟨-, hn, hall, -⟩ := readTable_eq_ok_iff.mp hr
    exact h.enterAll hall hn
  | sequence items closing => exact h.readItems (fun _ hs => hs) h.mem h.nodup hr
  | _ => cases hr

omit h

/-- The items of the list that stands for a field. -/
def itemNodes (s : Schema σ) (key : String) (n : Node) : List Node :=
  match s.fieldNode? key n with
  | some (.sequence items _) => items
  | _ => []

/-- A list in a record is read item by item. -/
theorem Sets.items {α : Type} {read : Reader α} {get : σ → List α} {format : Format} {n : Node}
    {r : σ} (h : s.Sets key (readList read) get) (hb : get s.blank = [])
    (hr : s.read format n = .ok r) :
    List.Forall₂ (fun m x => read m = .ok x) (s.itemNodes key n) (get r) := by
  have hd := h.decides hr
  unfold itemNodes
  cases hf : s.fieldNode? key n with
  | none =>
    rw [hf] at hd
    have hget : get r = get s.blank := hd
    rw [hget, hb]
    exact .nil
  | some m =>
    rw [hf] at hd
    obtain ⟨items, rfl, hitems⟩ := readList_eq_ok_iff.mp hd
    exact hitems

end Schema

/-! Declarations of a file. -/

/-- The nodes for declarations of a kind, at the top of a file and in its namespaces. -/
def declarationNodes (format : Format) (key : String) (root : Node) : List Node :=
  (fileSchema format).itemNodes key root ++
    ((fileSchema format).itemNodes "namespaces" root).flatMap ((namespaceSchema format).itemNodes key)

theorem sets_namespaces (format : Format) :
    (fileSchema format).Sets "namespaces" (readList ((namespaceSchema format).read format))
      File.namespaces := by
  constructor <;> simp [Schema.keys, fileSchema, optionalSlot, Slot.fills_of_set]

/-- The declarations of a kind are read one by one from their nodes. -/
theorem declarations_read {α : Type} {format : Format} {key : String} {read : Reader α}
    {get : File → List α} {get' : Namespace → List α}
    (h : (fileSchema format).Sets key (readList read) get) (hb : get (fileSchema format).blank = [])
    (h' : (namespaceSchema format).Sets key (readList read) get')
    (hb' : get' (namespaceSchema format).blank = []) {root : Node} {f : File}
    (hr : (fileSchema format).read format root = .ok f) :
    List.Forall₂ (fun n x => read n = .ok x) (declarationNodes format key root)
      (get f ++ f.namespaces.flatMap get') := by
  have hspaces := (sets_namespaces format).items rfl hr
  exact List.rel_append (h.items hb hr) (List.rel_flatMap hspaces fun _ _ hn => h'.items hb' hn)

theorem variables_read {format : Format} {root : Node} {f : File}
    (hr : (fileSchema format).read format root = .ok f) :
    List.Forall₂ (fun n x => variableSchema.read format n = .ok x)
      (declarationNodes format "variables" root) (f.vars ++ f.namespaces.flatMap Namespace.vars) := by
  refine declarations_read ?_ rfl ?_ rfl hr
  · constructor <;> simp [Schema.keys, fileSchema, optionalSlot, Slot.fills_of_set]
  · constructor <;>
      simp [Schema.keys, namespaceSchema, requiredSlot, optionalSlot, Slot.fills_of_set]

theorem functions_read {format : Format} {root : Node} {f : File}
    (hr : (fileSchema format).read format root = .ok f) :
    List.Forall₂ (fun n x => (functionSchema format).read format n = .ok x)
      (declarationNodes format "functions" root)
      (f.functions ++ f.namespaces.flatMap Namespace.functions) := by
  refine declarations_read ?_ rfl ?_ rfl hr
  · constructor <;> simp [Schema.keys, fileSchema, optionalSlot, Slot.fills_of_set]
  · constructor <;>
      simp [Schema.keys, namespaceSchema, requiredSlot, optionalSlot, Slot.fills_of_set]

theorem enums_read {format : Format} {root : Node} {f : File}
    (hr : (fileSchema format).read format root = .ok f) :
    List.Forall₂ (fun n x => (enumSchema format).read format n = .ok x)
      (declarationNodes format "enums" root) (f.enums ++ f.namespaces.flatMap Namespace.enums) := by
  refine declarations_read ?_ rfl ?_ rfl hr
  · constructor <;> simp [Schema.keys, fileSchema, optionalSlot, Slot.fills_of_set]
  · constructor <;>
      simp [Schema.keys, namespaceSchema, requiredSlot, optionalSlot, Slot.fills_of_set]

/-! Parts of declarations. -/

theorem parameters_read {format : Format} {n : Node} {g : Function}
    (hr : (functionSchema format).read format n = .ok g) :
    List.Forall₂ (fun m x => parameterSchema.read format m = .ok x)
      ((functionSchema format).itemNodes "params" n) g.params := by
  have hs : (functionSchema format).Sets "params" (readList (parameterSchema.read format))
      Function.params := by
    constructor <;>
      simp [Schema.keys, functionSchema, requiredSlot, optionalSlot, Slot.fills_of_set]
  exact hs.items rfl hr

theorem members_read {format : Format} {n : Node} {e : Enum}
    (hr : (enumSchema format).read format n = .ok e) :
    List.Forall₂ (fun m x => memberSchema.read format m = .ok x)
      ((enumSchema format).itemNodes "members" n) e.members := by
  have hs : (enumSchema format).Sets "members" (readList (memberSchema.read format))
      Enum.members := by
    constructor <;> simp [Schema.keys, enumSchema, requiredSlot, optionalSlot, Slot.fills_of_set]
  exact hs.items rfl hr

theorem variable_value {format : Format} {n : Node} {x : Variable}
    (hr : variableSchema.read format n = .ok x) :
    Decides readSome (variableSchema.fieldNode? "value" n) none x.value := by
  have hs : variableSchema.Sets "value" readSome Variable.value := by
    constructor <;> simp [Schema.keys, variableSchema, requiredSlot, optionalSlot, Slot.fills_some]
  exact hs.decides hr

theorem parameter_default {format : Format} {n : Node} {p : Parameter}
    (hr : parameterSchema.read format n = .ok p) :
    Decides readSome (parameterSchema.fieldNode? "default" n) none p.default := by
  have hs : parameterSchema.Sets "default" readSome Parameter.default := by
    constructor <;> simp [Schema.keys, parameterSchema, requiredSlot, optionalSlot, Slot.fills_some]
  exact hs.decides hr

theorem member_value {format : Format} {n : Node} {m : EnumMember}
    (hr : memberSchema.read format n = .ok m) :
    Decides readSome (memberSchema.fieldNode? "value" n) none m.value := by
  have hs : memberSchema.Sets "value" readSome EnumMember.value := by
    constructor <;> simp [Schema.keys, memberSchema, requiredSlot, optionalSlot, Slot.fills_some]
  exact hs.decides hr

end Ambient.Manifest
