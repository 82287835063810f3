import Ambient.Manifest.Load

/-!
The violations of a declaration file, listed in the order in which they count. Validation reports
the first of them, and accepts the files that have none.
-/
namespace Ambient

/-- The outcome of a check that finds these problems: the first one counts. -/
def firstOf : List Error → Except Error Unit
  | [] => .ok ()
  | e :: _ => .error e

theorem firstOf_append (es fs : List Error) :
    firstOf (es ++ fs) = (firstOf es >>= fun _ => firstOf fs) := by
  cases es <;> rfl

theorem firstOf_eq_ok_iff {es : List Error} : firstOf es = .ok () ↔ es = [] := by
  cases es <;> simp [firstOf]

theorem firstOf_eq_error_iff {es : List Error} {e : Error} :
    firstOf es = .error e ↔ es.head? = some e := by
  cases es <;> simp [firstOf]

/-- Checks made one after the other find the violations in that order. -/
theorem forM_eq_firstOf {α : Type} {check : α → Except Error Unit} {violations : α → List Error}
    (h : ∀ x, check x = firstOf (violations x)) (xs : List α) :
    xs.forM check = firstOf (xs.flatMap violations) := by
  induction xs with
  | nil => rfl
  | cons x xs ih =>
    change (check x >>= fun _ => xs.forM check) = _
    rw [List.flatMap_cons, firstOf_append, h, ih]

/-! Names. -/

/-- A violation for each name with nothing but blanks. -/
def blankNames (kind : Kind) (names : List String) : List Error :=
  (names.filter fun n => n.toList.all Text.isBlank).map fun _ => .emptyName kind

/-- The first name that is equal to one before it. -/
def firstAgain? (names : List String) : Option String :=
  (names.zipIdx.find? fun p => p.1 ∈ names.take p.2).map Prod.fst

/-- The violation for a name that is not the first of its kind with the owner, if there is one. -/
def repeatedName (owner : Owner) (names : List String) : List Error :=
  (firstAgain? names).toList.map (.duplicate owner)

theorem requireName_eq_firstOf (kind : Kind) (name : String) :
    requireName kind name = firstOf (blankNames kind [name]) := by
  unfold requireName isBlankName Text.isAllBlank blankNames
  by_cases h : name.toList.all Text.isBlank <;> simp [h, firstOf]

theorem flatMap_blankNames (kind : Kind) (names : List String) :
    names.flatMap (fun n => blankNames kind [n]) = blankNames kind names := by
  induction names with
  | nil => rfl
  | cons n ns ih =>
    rw [List.flatMap_cons, ih]
    by_cases h : n.toList.all Text.isBlank <;> simp [blankNames, h]

theorem forM_requireName (kind : Kind) (names : List String) :
    names.forM (requireName kind) = firstOf (blankNames kind names) := by
  rw [forM_eq_firstOf (requireName_eq_firstOf kind), flatMap_blankNames]

/-- The names seen so far are those of the prefix that has been read. -/
theorem firstRepeat?_eq_find? {seen before : List String} (names : List String)
    (h : ∀ n, n ∈ seen ↔ n ∈ before) :
    firstRepeat? seen names =
      ((names.zipIdx before.length).find? fun p => p.1 ∈ (before ++ names).take p.2).map
        Prod.fst := by
  induction names generalizing seen before with
  | nil => rfl
  | cons n ns ih =>
    have hs : ∀ m, m ∈ n :: seen ↔ m ∈ before ++ [n] := by
      intro m
      rw [List.mem_cons, List.mem_append, List.mem_singleton, h, or_comm]
    have hn := ih hs
    simp only [List.length_append, List.length_singleton, List.append_assoc,
      List.singleton_append] at hn
    simp only [firstRepeat?, List.zipIdx_cons, List.find?_cons, List.take_left, ← h n]
    by_cases hm : n ∈ seen
    · simp [hm]
    · simp only [hm, ↓reduceIte, decide_false, hn]

theorem firstRepeat?_eq (names : List String) : firstRepeat? [] names = firstAgain? names := by
  rw [@firstRepeat?_eq_find? [] [] names (fun _ => Iff.rfl)]
  rfl

theorem firstRepeat?_eq_none_iff (seen names : List String) :
    firstRepeat? seen names = none ↔ names.Nodup ∧ ∀ n ∈ names, n ∉ seen := by
  induction names generalizing seen with
  | nil => simp [firstRepeat?]
  | cons n ns ih =>
    by_cases hm : n ∈ seen
    · simp [firstRepeat?, hm]
    · simp only [firstRepeat?, hm, ↓reduceIte, ih, List.nodup_cons, List.mem_cons, not_or]
      constructor
      · rintro ⟨hd, hs⟩
        refine ⟨⟨fun hn => (hs n hn).1 rfl, hd⟩, ?_⟩
        rintro m (rfl | hmem)
        · exact hm
        · exact (hs m hmem).2
      · rintro ⟨⟨hn, hd⟩, hs⟩
        exact ⟨hd, fun m hmem => ⟨fun he => hn (he ▸ hmem), hs m (Or.inr hmem)⟩⟩

theorem requireUnique_eq_firstOf (owner : Owner) (names : List String) :
    requireUnique owner names = firstOf (repeatedName owner names) := by
  unfold requireUnique repeatedName
  rw [firstRepeat?_eq]
  cases firstAgain? names <;> rfl

theorem requireItems_eq_firstOf (kind : Kind) (owner : Owner) (names : List String) :
    requireItems kind owner names =
      firstOf (blankNames kind names ++ repeatedName owner names) := by
  rw [firstOf_append, ← forM_requireName, ← requireUnique_eq_firstOf]
  rfl

/-- A name in which not every character is blank. -/
def IsName (name : String) : Prop := ∃ c ∈ name.toList, ¬ Text.isBlank c

theorem blankNames_eq_nil_iff {kind : Kind} {names : List String} :
    blankNames kind names = [] ↔ ∀ n ∈ names, IsName n := by
  simp [blankNames, IsName, List.filter_eq_nil_iff]

theorem repeatedName_eq_nil_iff {owner : Owner} {names : List String} :
    repeatedName owner names = [] ↔ names.Nodup := by
  have h := firstRepeat?_eq_none_iff [] names
  rw [firstRepeat?_eq] at h
  simpa [repeatedName] using h

/-! Declarations. -/

def Alias.violations (a : Alias) : List Error := blankNames .alias [a.name]

def Variable.violations (v : Variable) : List Error := blankNames .var [v.name]

def Enum.violations (e : Enum) : List Error :=
  let names := e.members.map EnumMember.name
  blankNames .enum [e.name] ++ blankNames .member names ++ repeatedName (.enum e.name) names

def Class.violations (c : Class) : List Error :=
  let names := c.fields.map Field.name
  blankNames .cls [c.name] ++ blankNames .field names ++ repeatedName (.cls c.name) names

def Function.violations (f : Function) : List Error :=
  let names := f.params.map Parameter.name
  blankNames .func [f.name] ++ blankNames .param names ++ repeatedName (.func f.name) names

/-- Members are looked through kind by kind; their names have to differ across the kinds. -/
def Namespace.violations (n : Namespace) : List Error :=
  blankNames .space [n.name] ++
    (n.enums.flatMap Enum.violations ++ n.classes.flatMap Class.violations ++
      n.vars.flatMap Variable.violations ++ n.functions.flatMap Function.violations) ++
    repeatedName (.space n.name) (n.enums.map Enum.name ++ n.classes.map Class.name ++
      n.vars.map Variable.name ++ n.functions.map Function.name)

def File.violations (f : File) : List Error :=
  f.types.flatMap Alias.violations ++ f.enums.flatMap Enum.violations ++
    f.classes.flatMap Class.violations ++ f.vars.flatMap Variable.violations ++
    f.functions.flatMap Function.violations ++ f.namespaces.flatMap Namespace.violations ++
    repeatedName .file (f.types.map Alias.name ++ f.enums.map Enum.name ++
      f.classes.map Class.name ++ f.vars.map Variable.name ++ f.functions.map Function.name ++
      f.namespaces.map Namespace.name)

theorem Alias.validate_eq_firstOf (a : Alias) : a.validate = firstOf a.violations :=
  requireName_eq_firstOf .alias a.name

theorem Variable.validate_eq_firstOf (v : Variable) : v.validate = firstOf v.violations :=
  requireName_eq_firstOf .var v.name

theorem Enum.validate_eq_firstOf (e : Enum) : e.validate = firstOf e.violations := by
  rw [Enum.violations, List.append_assoc, firstOf_append, ← requireName_eq_firstOf,
    ← requireItems_eq_firstOf]
  rfl

theorem Class.validate_eq_firstOf (c : Class) : c.validate = firstOf c.violations := by
  rw [Class.violations, List.append_assoc, firstOf_append, ← requireName_eq_firstOf,
    ← requireItems_eq_firstOf]
  rfl

theorem Function.validate_eq_firstOf (f : Function) : f.validate = firstOf f.violations := by
  rw [Function.violations, List.append_assoc, firstOf_append, ← requireName_eq_firstOf,
    ← requireItems_eq_firstOf]
  rfl

def Member.violations : Member → List Error
  | .enum e => e.violations
  | .cls c => c.violations
  | .var v => v.violations
  | .func f => f.violations

theorem Member.validate_eq_firstOf (m : Member) : m.validate = firstOf m.violations := by
  cases m with
  | enum e => exact e.validate_eq_firstOf
  | cls c => exact c.validate_eq_firstOf
  | var v => exact v.validate_eq_firstOf
  | func f => exact f.validate_eq_firstOf

namespace Namespace

theorem flatMap_members (n : Namespace) :
    n.members.flatMap Member.violations =
      n.enums.flatMap Enum.violations ++ n.classes.flatMap Class.violations ++
        n.vars.flatMap Variable.violations ++ n.functions.flatMap Function.violations := by
  simp only [members, List.flatMap_append, List.flatMap_map, Member.violations]

theorem map_members_name (n : Namespace) :
    n.members.map Member.name = n.enums.map Enum.name ++ n.classes.map Class.name ++
      n.vars.map Variable.name ++ n.functions.map Function.name := by
  simp only [members, List.map_append, List.map_map]
  rfl

/-- Free members are checked in their order; if none is at fault, their names come back. -/
theorem mapM_checkedName (space : String) (ms : List Member) :
    (ms.map Sight.free).mapM (checkedName space) =
      (firstOf (ms.flatMap Member.violations) >>= fun _ => .ok (ms.map Member.name)) := by
  induction ms with
  | nil => rfl
  | cons m ms ih =>
    have hm : checkedName space (.free m) = (firstOf m.violations >>= fun _ => .ok m.name) := by
      rw [← m.validate_eq_firstOf]
      rfl
    rw [List.map_cons, List.mapM_cons, ih, hm, List.flatMap_cons, firstOf_append]
    cases firstOf m.violations with
    | error e => rfl
    | ok u => cases firstOf (ms.flatMap Member.violations) <;> rfl

theorem validate_eq_firstOf (n : Namespace) : n.validate = firstOf n.violations := by
  rw [violations, ← flatMap_members, ← map_members_name, firstOf_append, firstOf_append,
    ← requireName_eq_firstOf, ← requireUnique_eq_firstOf]
  unfold validate validateSights sights
  rw [mapM_checkedName]
  cases requireName .space n.name with
  | error e => rfl
  | ok u => cases firstOf (n.members.flatMap Member.violations) <;> rfl

end Namespace

def Declaration.violations : Declaration → List Error
  | .alias a => a.violations
  | .member m => m.violations
  | .space n => n.violations

theorem Declaration.validate_eq_firstOf (d : Declaration) : d.validate = firstOf d.violations := by
  rcases d with a | m | n
  · exact a.validate_eq_firstOf
  · exact m.validate_eq_firstOf
  · exact n.validate_eq_firstOf

/-! Files in which every name is one and names with one owner differ. -/

def Enum.WellFormed (e : Enum) : Prop :=
  IsName e.name ∧ (∀ m ∈ e.members, IsName m.name) ∧ (e.members.map EnumMember.name).Nodup

def Class.WellFormed (c : Class) : Prop :=
  IsName c.name ∧ (∀ f ∈ c.fields, IsName f.name) ∧ (c.fields.map Field.name).Nodup

def Function.WellFormed (f : Function) : Prop :=
  IsName f.name ∧ (∀ p ∈ f.params, IsName p.name) ∧ (f.params.map Parameter.name).Nodup

structure Namespace.WellFormed (n : Namespace) : Prop where
  name : IsName n.name
  enums : ∀ e ∈ n.enums, e.WellFormed
  classes : ∀ c ∈ n.classes, c.WellFormed
  vars : ∀ v ∈ n.vars, IsName v.name
  functions : ∀ f ∈ n.functions, f.WellFormed
  nodup : (n.enums.map Enum.name ++ n.classes.map Class.name ++ n.vars.map Variable.name ++
    n.functions.map Function.name).Nodup

structure File.WellFormed (f : File) : Prop where
  types : ∀ a ∈ f.types, IsName a.name
  enums : ∀ e ∈ f.enums, e.WellFormed
  classes : ∀ c ∈ f.classes, c.WellFormed
  vars : ∀ v ∈ f.vars, IsName v.name
  functions : ∀ g ∈ f.functions, g.WellFormed
  namespaces : ∀ n ∈ f.namespaces, n.WellFormed
  nodup : (f.types.map Alias.name ++ f.enums.map Enum.name ++ f.classes.map Class.name ++
    f.vars.map Variable.name ++ f.functions.map Function.name ++
    f.namespaces.map Namespace.name).Nodup

theorem Alias.violations_eq_nil_iff (a : Alias) : a.violations = [] ↔ IsName a.name := by
  simp [Alias.violations, blankNames_eq_nil_iff]

theorem Variable.violations_eq_nil_iff (v : Variable) : v.violations = [] ↔ IsName v.name := by
  simp [Variable.violations, blankNames_eq_nil_iff]

theorem Enum.violations_eq_nil_iff (e : Enum) : e.violations = [] ↔ e.WellFormed := by
  simp [Enum.violations, Enum.WellFormed, blankNames_eq_nil_iff, repeatedName_eq_nil_iff]

theorem Class.violations_eq_nil_iff (c : Class) : c.violations = [] ↔ c.WellFormed := by
  simp [Class.violations, Class.WellFormed, blankNames_eq_nil_iff, repeatedName_eq_nil_iff]

theorem Function.violations_eq_nil_iff (f : Function) : f.violations = [] ↔ f.WellFormed := by
  simp [Function.violations, Function.WellFormed, blankNames_eq_nil_iff, repeatedName_eq_nil_iff]

theorem Namespace.violations_eq_nil_iff (n : Namespace) : n.violations = [] ↔ n.WellFormed := by
  simp only [violations, List.append_eq_nil_iff, List.flatMap_eq_nil_iff, blankNames_eq_nil_iff,
    repeatedName_eq_nil_iff, List.forall_mem_singleton, Enum.violations_eq_nil_iff,
    Class.violations_eq_nil_iff, Variable.violations_eq_nil_iff, Function.violations_eq_nil_iff]
  constructor
  · rintro ⟨⟨hn, ⟨⟨he, hc⟩, hv⟩, hf⟩, hd⟩
    exact ⟨hn, he, hc, hv, hf, hd⟩
  · rintro ⟨hn, he, hc, hv, hf, hd⟩
    exact ⟨⟨hn, ⟨⟨he, hc⟩, hv⟩, hf⟩, hd⟩

namespace File

theorem violations_eq_nil_iff (f : File) : f.violations = [] ↔ f.WellFormed := by
  simp only [violations, List.append_eq_nil_iff, List.flatMap_eq_nil_iff, repeatedName_eq_nil_iff,
    Alias.violations_eq_nil_iff, Enum.violations_eq_nil_iff, Class.violations_eq_nil_iff,
    Variable.violations_eq_nil_iff, Function.violations_eq_nil_iff,
    Namespace.violations_eq_nil_iff]
  constructor
  · rintro ⟨⟨⟨⟨⟨⟨ht, he⟩, hc⟩, hv⟩, hf⟩, hn⟩, hd⟩
    exact ⟨ht, he, hc, hv, hf, hn, hd⟩
  · rintro ⟨ht, he, hc, hv, hf, hn, hd⟩
    exact ⟨⟨⟨⟨⟨⟨ht, he⟩, hc⟩, hv⟩, hf⟩, hn⟩, hd⟩

theorem flatMap_declarations (f : File) :
    f.declarations.flatMap Declaration.violations =
      f.types.flatMap Alias.violations ++ f.enums.flatMap Enum.violations ++
        f.classes.flatMap Class.violations ++ f.vars.flatMap Variable.violations ++
        f.functions.flatMap Function.violations ++
        f.namespaces.flatMap Namespace.violations := by
  simp only [declarations, List.flatMap_append, List.flatMap_map]
  rfl

theorem map_declarations_name (f : File) :
    f.declarations.map Declaration.name = f.types.map Alias.name ++ f.enums.map Enum.name ++
      f.classes.map Class.name ++ f.vars.map Variable.name ++ f.functions.map Function.name ++
      f.namespaces.map Namespace.name := by
  simp only [declarations, List.map_append, List.map_map]
  rfl

theorem validate_eq_firstOf (f : File) : f.validate = firstOf f.violations := by
  rw [violations, ← flatMap_declarations, ← map_declarations_name, firstOf_append,
    ← forM_eq_firstOf Declaration.validate_eq_firstOf, ← requireUnique_eq_firstOf]
  rfl

/-- A file loads when its text decodes and no declaration is at fault. -/
theorem load_eq_ok_iff (format : Manifest.Format) (source filename : String) (f : File) :
    Manifest.load format source filename = .ok f ↔
      Manifest.decode format source = .ok f ∧ f.validate = .ok () := by
  unfold Manifest.load
  cases Manifest.decode format source with
  | error p => simp
  | ok g =>
    cases hv : g.validate with
    | error e =>
      simp only [hv, reduceCtorEq, Except.ok.injEq, false_iff, not_and]
      rintro rfl
      simp [hv]
    | ok u =>
      simp only [hv, Except.ok.injEq]
      exact ⟨fun h => ⟨h, h ▸ hv⟩, fun h => h.1⟩

/--
Validation fails with the first violation and with nothing else, so a text that decodes loads
exactly when the file in it has no violation.
-/
theorem validate_reports_first_violation (f : File) :
    (f.validate = .ok () ↔ f.violations = []) ∧ (f.violations = [] ↔ f.WellFormed) ∧
      (∀ e, f.validate = .error e ↔ f.violations.head? = some e) ∧
      ∀ format source filename, Manifest.load format source filename = .ok f ↔
        Manifest.decode format source = .ok f ∧ f.violations = [] := by
  have hok : f.validate = .ok () ↔ f.violations = [] := by
    rw [validate_eq_firstOf, firstOf_eq_ok_iff]
  refine ⟨hok, f.violations_eq_nil_iff, fun e => ?_, fun format source filename => ?_⟩
  · rw [validate_eq_firstOf, firstOf_eq_error_iff]
  · rw [load_eq_ok_iff, hok]

end File
end Ambient
