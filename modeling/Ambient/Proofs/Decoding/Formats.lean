import Ambient.Proofs.Decoding.Literals
import Ambient.Proofs.Decoding.Shapes
import Ambient.Proofs.Validation
import Mathlib

/-!
The two formats of manifests. A tree that both can write is read as the same declarations in either,
whatever the order of the keys in its tables.
-/
namespace Ambient.Manifest

/-- What both formats can write: no null and no datetime, integers of 64 bits and finite floats. -/
inductive Tree
  | boolean (b : Bool)
  | integer (n : Int64)
  | float (negative : Bool) (rank : Fin (2047 * binade))
  | text (s : String)
  | sequence (items : List Tree)
  | table (entries : List (String × Tree))

mutual

/-- The node shows the tree, with the keys of each table in any order. -/
def Tree.Shown : Tree → Node → Prop
  | .boolean b, n => n = .boolean b
  | .integer i, n => n = .integer i.toInt
  | .float negative rank, n => n = .float (.finite negative rank)
  | .text s, n => n = .text s
  | .sequence ts, n => ∃ ns, n = .sequence ns none ∧ ItemsShown ts ns
  | .table ts, n => ∃ es fs, n = .table fs none ∧ fs.Perm es ∧ EntriesShown ts es

def ItemsShown : List Tree → List Node → Prop
  | [], ns => ns = []
  | t :: ts, ns => ∃ n ns', ns = n :: ns' ∧ t.Shown n ∧ ItemsShown ts ns'

def EntriesShown : List (String × Tree) → List Entry → Prop
  | [], es => es = []
  | (key, t) :: ts, es => ∃ n es', es = .mk (.named key) n :: es' ∧ t.Shown n ∧ EntriesShown ts es'

end

/-- No record is written as a list of its fields, and the choice of a word as nothing but the word. -/
def Written : Shape → Node → Prop
  | .choice _, n => ∃ s, n = .text s
  | shape, n => Tabular shape n

/-! Trees have no problems. -/

theorem isWordInteger_toInt (i : Int64) : isWordInteger i.toInt = true := by
  have hlo := i.le_toInt
  have hhi := i.toInt_lt
  have hmin : Int64.minValue.toInt = -9223372036854775808 := rfl
  have hsize : UInt64.size = 18446744073709551616 := rfl
  simp only [isWordInteger, Bool.and_eq_true, decide_eq_true_eq, hmin, hsize]
  omega

mutual

theorem Tree.Shown.problem? : {t : Tree} → {n : Node} → t.Shown n → n.problem? = none
  | .boolean _, _, h | .float _ _, _, h | .text _, _, h => by
    rw [Tree.Shown] at h
    rw [h, Node.problem?]
  | .integer i, _, h => by
    rw [Tree.Shown] at h
    rw [h, Node.problem?, if_pos (isWordInteger_toInt i)]
  | .sequence _, _, h => by
    rw [Tree.Shown] at h
    obtain ⟨ns, rfl, hns⟩ := h
    exact problem?_sequence_eq_none_iff.mpr ⟨hns.problem?, rfl⟩
  | .table _, _, h => by
    rw [Tree.Shown] at h
    obtain ⟨es, fs, rfl, hp, hes⟩ := h
    exact problem?_table_eq_none_iff.mpr ⟨fun e he => hes.problem? e (hp.mem_iff.mp he), rfl⟩

theorem ItemsShown.problem? : {ts : List Tree} → {ns : List Node} → ItemsShown ts ns →
    ∀ n ∈ ns, n.problem? = none
  | [], _, h => by
    rw [ItemsShown] at h
    simp [h]
  | t :: ts, _, h => by
    rw [ItemsShown] at h
    obtain ⟨n, ns, rfl, hn, hns⟩ := h
    exact List.forall_mem_cons.mpr ⟨hn.problem?, hns.problem?⟩

theorem EntriesShown.problem? : {ts : List (String × Tree)} → {es : List Entry} →
    EntriesShown ts es → ∀ e ∈ es, Node.entryProblem? e = none
  | [], _, h => by
    rw [EntriesShown] at h
    simp [h]
  | (key, t) :: ts, _, h => by
    rw [EntriesShown] at h
    obtain ⟨n, es, rfl, hn, hes⟩ := h
    exact List.forall_mem_cons.mpr ⟨hn.problem?, hes.problem?⟩

end

theorem EntriesShown.map_name {ts : List (String × Tree)} {es : List Entry}
    (h : EntriesShown ts es) : es.map Entry.name = ts.map Prod.fst := by
  induction ts generalizing es with
  | nil =>
    rw [EntriesShown] at h
    rw [h, List.map_nil, List.map_nil]
  | cons p ts ih =>
    rw [EntriesShown] at h
    obtain ⟨n, es, rfl, -, hes⟩ := h
    rw [List.map_cons, List.map_cons, ih hes, Entry.name]

/-! Nodes that show one tree. -/

section Shown

variable {t : Tree} {closing : Option Problem}

theorem shown_text_iff {s : String} : t.Shown (.text s) ↔ t = .text s := by
  cases t <;> simp [Tree.Shown, eq_comm]

theorem shown_boolean_iff {b : Bool} : t.Shown (.boolean b) ↔ t = .boolean b := by
  cases t <;> simp [Tree.Shown, eq_comm]

theorem shown_sequence_iff {ns : List Node} :
    t.Shown (.sequence ns closing) ↔ closing = none ∧ ∃ ts, t = .sequence ts ∧ ItemsShown ts ns := by
  cases t <;> simp [Tree.Shown, and_comm]

theorem Tree.Shown.eq_text_iff {m n : Node} (hm : t.Shown m) (hn : t.Shown n) (s : String) :
    m = .text s ↔ n = .text s := by
  constructor
  · rintro rfl
    rwa [shown_text_iff.mp hm, Tree.Shown] at hn
  · rintro rfl
    rwa [shown_text_iff.mp hn, Tree.Shown] at hm

theorem Tree.Shown.eq_boolean_iff {m n : Node} (hm : t.Shown m) (hn : t.Shown n) (b : Bool) :
    m = .boolean b ↔ n = .boolean b := by
  constructor
  · rintro rfl
    rwa [shown_boolean_iff.mp hm, Tree.Shown] at hn
  · rintro rfl
    rwa [shown_boolean_iff.mp hn, Tree.Shown] at hm

theorem Tree.Shown.ne_null {n : Node} (h : t.Shown n) : n ≠ .null := by
  rintro rfl
  cases t <;> simp [Tree.Shown] at h

theorem Tree.Shown.ne_broken {n : Node} (h : t.Shown n) (began : Beginning) (p : Problem) :
    n ≠ .broken began p := by
  rintro rfl
  cases t <;> simp [Tree.Shown] at h

end Shown

/-! Readers of the two formats. -/

/-- The reader finds the same in any two nodes that show one tree, or nothing in either. -/
def Alike {α : Type} (shape : Shape) (read : Format → Reader α) : Prop :=
  ∀ ⦃t : Tree⦄ ⦃m n : Node⦄, t.Shown m → t.Shown n → m.Throughout Written shape →
    ∀ x, read .toml m = .ok x ↔ read .json n = .ok x

theorem alike_text : Alike .scalar fun _ => readText := by
  intro t m n hm hn _ s
  rw [readText_eq_ok_iff, readText_eq_ok_iff, hm.eq_text_iff hn]

theorem alike_flag : Alike .scalar fun _ => readFlag := by
  intro t m n hm hn _ b
  rw [readFlag_eq_ok_iff, readFlag_eq_ok_iff, hm.eq_boolean_iff hn]

theorem alike_type : Alike .scalar fun _ => readType := by
  intro t m n hm hn _ x
  simp only [readType_eq_ok_iff, hm.eq_text_iff hn]

theorem EntriesShown.filter_isRaw {ts : List (String × Tree)} {es : List Entry}
    (h : EntriesShown ts es) :
    EntriesShown (ts.filter (·.1 = rawKey)) (es.filter Entry.isRaw) := by
  induction ts generalizing es with
  | nil =>
    rw [EntriesShown] at h
    rw [h, List.filter_nil, List.filter_nil, EntriesShown]
  | cons p ts ih =>
    obtain ⟨key, t⟩ := p
    rw [EntriesShown] at h
    obtain ⟨n, es, rfl, hn, hes⟩ := h
    by_cases hk : key = rawKey
    · simpa [hk, Entry.isRaw, EntriesShown] using ⟨hn, ih hes⟩
    · simpa [hk, Entry.isRaw] using ih hes

/-- Two tables that show the same entries hold the same expression, if they hold one. -/
theorem EntriesShown.rawExpression? {ts : List (String × Tree)} {es fs : List Entry}
    (he : EntriesShown ts es) (hf : EntriesShown ts fs) :
    rawExpression? es = rawExpression? fs := by
  rw [rawExpression?_eq, rawExpression?_eq]
  have he := he.filter_isRaw
  have hf := hf.filter_isRaw
  generalize ts.filter (·.1 = rawKey) = ts at he hf
  match ts with
  | [] =>
    rw [EntriesShown] at he hf
    rw [he, hf]
  | [(key, t)] =>
    simp only [EntriesShown] at he hf
    obtain ⟨m, _, he, hm, rfl⟩ := he
    obtain ⟨n, _, hf, hn, rfl⟩ := hf
    rw [he, hf]
    refine Option.ext fun s => ?_
    simp [Entry.onlyText?_eq_some_iff, hm.eq_text_iff hn]
  | _ :: _ :: _ =>
    simp only [EntriesShown] at he hf
    obtain ⟨_, _, he, -, _, _, rfl, -⟩ := he
    obtain ⟨_, _, hf, -, _, _, rfl, -⟩ := hf
    rw [he, hf]
    simp [Entry.onlyText?]

theorem alike_literal : Alike .literal fun _ => readValue := by
  intro t m n hm hn _ v
  simp only [readValue_eq_ok_iff, hm.problem?, hn.problem?, true_and]
  suffices value? m = value? n by rw [this]
  cases t with
  | sequence =>
    rw [Tree.Shown] at hm hn
    obtain ⟨_, rfl, -⟩ := hm
    obtain ⟨_, rfl, -⟩ := hn
    rfl
  | table =>
    rw [Tree.Shown] at hm hn
    obtain ⟨_, _, rfl, hp, he⟩ := hm
    obtain ⟨_, _, rfl, hp', hf⟩ := hn
    simp only [value?, rawExpression?_perm hp, rawExpression?_perm hp', he.rawExpression? hf]
  | _ =>
    rw [Tree.Shown] at hm hn
    rw [hm, hn]

theorem alike_dialect : Alike (.choice dialectNames) readDialect := by
  intro t m n hm hn hw d
  obtain ⟨s, rfl⟩ := hw.here
  rw [shown_text_iff.mp hm, Tree.Shown] at hn
  rw [hn]
  exact Iff.rfl

variable {α : Type} {shape : Shape} {read : Format → Reader α}

theorem Alike.optional (h : Alike shape read) :
    Alike shape fun format => readOptional (read format) := by
  intro t m n hm hn hw x
  have hx := fun y => h hm hn hw y
  simp [readOptional_eq_ok_iff, hx, hm.ne_null, hn.ne_null, hm.ne_broken, hn.ne_broken]

theorem Alike.items (h : Alike shape read) {ts : List Tree} {ms ns : List Node}
    (hm : ItemsShown ts ms) (hn : ItemsShown ts ns) (hw : ∀ m ∈ ms, m.Throughout Written shape)
    (xs : List α) :
    List.Forall₂ (fun m x => read .toml m = .ok x) ms xs ↔
      List.Forall₂ (fun n x => read .json n = .ok x) ns xs := by
  induction ts generalizing ms ns xs with
  | nil =>
    rw [ItemsShown] at hm hn
    rw [hm, hn]
    simp
  | cons t ts ih =>
    rw [ItemsShown] at hm hn
    obtain ⟨m, ms, rfl, hm, hms⟩ := hm
    obtain ⟨n, ns, rfl, hn, hns⟩ := hn
    obtain ⟨hw, hws⟩ := List.forall_mem_cons.mp hw
    cases xs with
    | nil => simp
    | cons x xs => rw [List.forall₂_cons, List.forall₂_cons, h hm hn hw x, ih hms hns hws xs]

theorem Alike.list (h : Alike shape read) :
    Alike (.list shape) fun format => readList (read format) := by
  intro t m n hm hn hw xs
  simp only [readList_eq_ok_iff]
  constructor
  · rintro ⟨ms, rfl, hxs⟩
    obtain ⟨-, ts, rfl, hms⟩ := shown_sequence_iff.mp hm
    rw [Tree.Shown] at hn
    obtain ⟨ns, rfl, hns⟩ := hn
    exact ⟨ns, rfl, (h.items hms hns (Node.throughout_sequence.mp hw).2 xs).mp hxs⟩
  · rintro ⟨ns, rfl, hxs⟩
    obtain ⟨-, ts, rfl, hns⟩ := shown_sequence_iff.mp hn
    rw [Tree.Shown] at hm
    obtain ⟨ms, rfl, hms⟩ := hm
    exact ⟨ms, rfl, (h.items hms hns (Node.throughout_sequence.mp hw).2 xs).mpr hxs⟩

/-- The fields have the same keys in both formats, and their readers are alike. -/
structure AlikeFields {σ : Type} (fields : List (String × Shape))
    (slots : Format → List (Slot σ)) : Prop where
  required : (slots .toml).map (fun slot => (slot.key, slot.required)) =
    (slots .json).map fun slot => (slot.key, slot.required)
  fill : ∀ {key : String} {t : Tree} {m n : Node}, t.Shown m → t.Shown n →
    m.Throughout Written ((fields.lookup key).getD .scalar) → ∀ r : σ,
      (((slots .toml).find? (·.key == key)).bind fun slot => (slot.fill m r).toOption) =
        ((slots .json).find? (·.key == key)).bind fun slot => (slot.fill n r).toOption

theorem AlikeFields.nil {σ : Type} : AlikeFields [] fun _ => ([] : List (Slot σ)) :=
  ⟨rfl, fun _ _ _ _ => rfl⟩

theorem AlikeFields.cons {key : String} {fields : List (String × Shape)} {σ : Type}
    {set : α → σ → σ} {required : Bool} {slots : Format → List (Slot σ)} (h : Alike shape read)
    (hs : AlikeFields fields slots) :
    AlikeFields ((key, shape) :: fields) fun format =>
      ⟨key, fun n r => (set · r) <$> read format n, required⟩ :: slots format where
  required := by rw [List.map_cons, List.map_cons, hs.required]
  fill := by
    intro k t m n hm hn hw r
    rw [List.lookup_cons] at hw
    by_cases hk : key = k
    · have hread := toOption_eq_iff.mpr (h hm hn (by simpa [hk] using hw))
      simp [hk, toOption_map, hread]
    · have hk' : (k == key) = false := beq_eq_false_iff_ne.mpr (Ne.symm hk)
      simpa [hk] using hs.fill hm hn (by simpa [hk'] using hw) r

section Record

variable {fields : List (String × Shape)} {σ : Type} {s : Format → Schema σ}

theorem AlikeFields.enterAll (h : AlikeFields fields fun format => (s format).slots)
    {ts : List (String × Tree)} {es fs : List Entry} (he : EntriesShown ts es)
    (hf : EntriesShown ts fs)
    (hw : ∀ key n, .mk (.named key) n ∈ es → n.Throughout Written ((fields.lookup key).getD .scalar))
    (r : Option σ) : (s .toml).enterAll r es = (s .json).enterAll r fs := by
  induction ts generalizing es fs r with
  | nil =>
    rw [EntriesShown] at he hf
    rw [he, hf, Schema.enterAll_nil, Schema.enterAll_nil]
  | cons p ts ih =>
    obtain ⟨key, t⟩ := p
    rw [EntriesShown] at he hf
    obtain ⟨m, es, rfl, hm, hes⟩ := he
    obtain ⟨n, fs, rfl, hn, hfs⟩ := hf
    have henter : ∀ r, (s .toml).enter r (.mk (.named key) m) = (s .json).enter r (.mk (.named key) n) :=
      h.fill hm hn (hw key m List.mem_cons_self)
    rw [Schema.enterAll_cons, Schema.enterAll_cons,
      ih hes hfs fun k n hk => hw k n (List.mem_cons_of_mem _ hk)]
    simp only [henter]

theorem AlikeFields.readTable (h : AlikeFields fields fun format => (s format).slots)
    (hb : (s .toml).blank = (s .json).blank) {ts : List (String × Tree)} {es fs : List Entry}
    (he : EntriesShown ts es) (hf : EntriesShown ts fs)
    (hw : ∀ key n, .mk (.named key) n ∈ es → n.Throughout Written ((fields.lookup key).getD .scalar))
    (r : σ) : (s .toml).readTable es none = .ok r ↔ (s .json).readTable fs none = .ok r := by
  have hreq (format : Format) (names : List String) :
      (∀ slot ∈ (s format).slots, slot.required → slot.key ∈ names) ↔
        ∀ p ∈ (s format).slots.map fun slot => (slot.key, slot.required), p.2 = true → p.1 ∈ names := by
    rw [List.forall_mem_map]
  rw [Schema.readTable_eq_ok_iff, Schema.readTable_eq_ok_iff, he.map_name, hf.map_name, hb,
    h.enterAll he hf hw, hreq, hreq, h.required]

theorem AlikeFields.record (h : AlikeFields fields fun format => (s format).slots)
    (hc : ∀ format, (s format).Commutes) (hb : (s .toml).blank = (s .json).blank) :
    Alike (.record fields) fun format => (s format).read format := by
  intro t m n hm hn hw r
  cases t with
  | sequence ts =>
    rw [Tree.Shown] at hm
    obtain ⟨ms, rfl, -⟩ := hm
    exact absurd hw.here Bool.noConfusion
  | table ts =>
    rw [Tree.Shown] at hm hn
    obtain ⟨es, ms, rfl, hp, he⟩ := hm
    obtain ⟨fs, ns, rfl, hq, hf⟩ := hn
    have hw' := (Node.throughout_table.mp hw).2
    calc (s .toml).readTable ms none = .ok r
      _ ↔ (s .toml).readTable es none = .ok r :=
        toOption_eq_iff.mp (Schema.readTable_perm (hc .toml) hp none) r
      _ ↔ (s .json).readTable fs none = .ok r :=
        h.readTable hb he hf (fun key n hk => hw' key n (hp.mem_iff.mpr hk)) r
      _ ↔ (s .json).readTable ns none = .ok r :=
        (toOption_eq_iff.mp (Schema.readTable_perm (hc .json) hq none) r).symm
  | _ =>
    rw [Tree.Shown] at hm hn
    rw [hm, hn]
    simp [Schema.read]

end Record

mutual

/-- All readers are alike: one case for each way to put readers together. -/
theorem Reads.alike : {shape : Shape} → {α : Type} → {read : Format → Reader α} →
    Reads shape read → Alike shape read
  | _, _, _, .text => alike_text
  | _, _, _, .flag => alike_flag
  | _, _, _, .type => alike_type
  | _, _, _, .literal => alike_literal
  | _, _, _, .dialect => alike_dialect
  | _, _, _, .optional h => h.alike.optional
  | _, _, _, .list h => h.alike.list
  | _, _, _, .record h hc hb => h.alike.record hc hb

theorem ReadsFields.alike : {fields : List (String × Shape)} → {σ : Type} →
    {slots : Format → List (Slot σ)} → ReadsFields fields slots → AlikeFields fields slots
  | _, _, _, .nil => .nil
  | _, _, _, .cons h hs => .cons h.alike hs.alike

end

/-! Loading. -/

/-- What is wrong with the declarations of a text that decodes does not depend on the text. -/
theorem load_eq_invalid_iff {format : Format} {source filename message : String} :
    (∃ span, load format source filename = .error (.invalid filename message span)) ↔
      ∃ f e, decode format source = .ok f ∧ f.validate = .error e ∧ e.message = message := by
  unfold load
  cases decode format source with
  | error p => simp
  | ok f =>
    cases hv : f.validate with
    | ok u => simp [hv]
    | error e => simp [hv]

/--
One tree is read as the same file in both formats, or as none in either. A repeated key is not excluded:
both refuse it. Two texts that hold the tree load as the same file, or fail, and if a declaration is
at fault the messages are the same.
-/
theorem formats_agree {t : Tree} {m n : Node} (hm : t.Shown m) (hn : t.Shown n)
    (hw : m.Throughout Written fileShape) :
    (∀ f, (fileSchema .toml).read .toml m = .ok f ↔ (fileSchema .json).read .json n = .ok f) ∧
    ∀ toml json, document .toml toml = ⟨m, false⟩ → document .json json = ⟨n, false⟩ →
      ∀ filename filename',
        (∀ f, load .toml toml filename = .ok f ↔ load .json json filename' = .ok f) ∧
        ∀ message,
          (∃ span, load .toml toml filename = .error (.invalid filename message span)) ↔
            ∃ span, load .json json filename' = .error (.invalid filename' message span) := by
  have hread := reads_file.alike hm hn hw
  refine ⟨hread, fun toml json ht hj filename filename' => ⟨fun f => ?_, fun message => ?_⟩⟩
  · simp only [File.load_eq_ok_iff, decode_eq_ok_iff, ht, hj, hread]
  · simp only [load_eq_invalid_iff, decode_eq_ok_iff, ht, hj, hread]

/-! A variable with an expression for its value, with its keys in another order in JSON. -/

namespace Reordered

def tree : Tree :=
  .table [("dialect", .text "ts"), ("variables", .sequence [
    .table [("name", .text "X"), ("value", .table [("raw", .text "f()")])]])]

def name : Entry := .mk (.named "name") (.text "X")

def value : Entry := .mk (.named "value") (.table [.mk (.named "raw") (.text "f()")] none)

def dialect : Entry := .mk (.named "dialect") (.text "ts")

def vars (entries : List Entry) : Entry :=
  .mk (.named "variables") (.sequence [.table entries none] none)

def sorted : Node := .table [dialect, vars [name, value]] none

def turned : Node := .table [vars [value, name], dialect] none

def toml : String :=
  "dialect = \"ts\"\n[[variables]]\nname = \"X\"\nvalue = \x7b raw = \"f()\" \x7d\n"

def json : String :=
  "\x7b\"variables\": [\x7b\"value\": \x7b\"raw\": \"f()\"\x7d, \"name\": \"X\"\x7d], \"dialect\": \"ts\"\x7d"

def file : File where
  dialect := some .typeScript
  vars := [{ name := "X", value := some (.raw "f()") }]

theorem shown_sorted : tree.Shown sorted := by
  simp [tree, sorted, vars, dialect, name, value, Tree.Shown, EntriesShown, ItemsShown]

theorem shown_turned : tree.Shown turned := by
  have hx : (Tree.table [("name", .text "X"), ("value", .table [("raw", .text "f()")])]).Shown
      (.table [value, name] none) := by
    refine ⟨[name, value], _, rfl, .swap .., ?_⟩
    simp [name, value, Tree.Shown, EntriesShown]
  refine ⟨[dialect, vars [value, name]], _, rfl, .swap .., ?_⟩
  simpa [dialect, vars, Tree.Shown, EntriesShown, ItemsShown] using hx

theorem formats_agree_reordered :
    tree.Shown sorted ∧ tree.Shown turned ∧ sorted.Throughout Written fileShape ∧
      document .toml toml = ⟨sorted, false⟩ ∧ document .json json = ⟨turned, false⟩ ∧
      load .toml toml "decl.toml" = .ok file ∧ load .json json "decl.json" = .ok file := by
  have hw : sorted.Throughout Written fileShape := by
    simp [sorted, vars, dialect, name, value, Node.Throughout, Node.entriesThroughout,
      Node.entryThroughout, Node.itemsThroughout, Written, Tabular, Node.isSequence, fileShape, variableShape,
      Shape.under, Shape.item, List.lookup_cons, rawKey]
  have hd : document .toml toml = ⟨sorted, false⟩ := by cbv
  have hj : document .json json = ⟨turned, false⟩ := by cbv
  have hl : load .toml toml "decl.toml" = .ok file := by decide +kernel
  have h := (formats_agree shown_sorted shown_turned hw).2 toml json hd hj "decl.toml" "decl.json"
  exact ⟨shown_sorted, shown_turned, hw, hd, hj, hl, (h.1 file).mp hl⟩

end Reordered

end Ambient.Manifest
