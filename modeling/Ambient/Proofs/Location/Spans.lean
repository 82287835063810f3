import Ambient.Proofs.Location.Entries
import Ambient.Proofs.Validation

/-!
Where errors in a manifest point. The search knows the text and not the items in it: a repeated name is
the second of its entries behind the owner's first one, or the only one, and an empty name is the first
empty entry of all.
-/
namespace Ambient
open Source Text

/-! The first of some places, and the second. -/

def IsFirst (P : Nat → Prop) (o : Nat) : Prop := P o ∧ ∀ q, P q → o ≤ q

/-- Exactly one place stands before this one. -/
def IsSecond (P : Nat → Prop) (o : Nat) : Prop := P o ∧ ∃ q, P q ∧ q < o ∧ ∀ p, P p → p < o → p = q

def IsOnly (P : Nat → Prop) (o : Nat) : Prop := P o ∧ ∀ q, P q → q = o

section Places

variable {es : List Nat} {P : Nat → Prop}

/-- The first place in the list is the least. -/
theorem head_le {e : Nat} (hs : (e :: es).Pairwise (· < ·)) : ∀ p ∈ e :: es, e ≤ p :=
  List.forall_mem_cons.mpr
    ⟨Nat.le_refl e, fun p hp => Nat.le_of_lt ((List.pairwise_cons.mp hs).1 p hp)⟩

theorem head?_eq_some_iff (hs : es.Pairwise (· < ·)) (hP : ∀ o, o ∈ es ↔ P o) (o : Nat) :
    es.head? = some o ↔ IsFirst P o := by
  simp only [IsFirst, ← hP]
  cases es with
  | nil => simp
  | cons e es =>
    rw [List.head?_cons, Option.some.injEq]
    constructor
    · rintro rfl
      exact ⟨List.mem_cons_self, head_le hs⟩
    · rintro ⟨ho, hle⟩
      exact Nat.le_antisymm (head_le hs o ho) (hle e List.mem_cons_self)

theorem second_or_head?_eq_some_iff (hs : es.Pairwise (· < ·)) (hP : ∀ o, o ∈ es ↔ P o) (o : Nat) :
    es[1]?.or es.head? = some o ↔ IsSecond P o ∨ IsOnly P o := by
  simp only [IsSecond, IsOnly, ← hP]
  cases es with
  | nil => simp
  | cons e es =>
    cases es with
    | nil =>
      simp only [List.mem_singleton, List.getElem?_cons_succ, List.getElem?_nil, Option.none_or,
        List.head?_cons, Option.some.injEq]
      constructor
      · rintro rfl
        exact .inr ⟨rfl, fun _ h => h⟩
      · rintro (⟨rfl, -⟩ | ⟨rfl, -⟩) <;> rfl
    | cons d es =>
      obtain ⟨hlt, hs'⟩ := List.pairwise_cons.mp hs
      have hed := hlt d List.mem_cons_self
      have hd := head_le hs'
      simp only [List.getElem?_cons_succ, List.getElem?_cons_zero, Option.some_or, Option.some.injEq]
      constructor
      · rintro rfl
        refine .inl ⟨by simp, e, by simp, hed, fun p hp hpd => ?_⟩
        rcases List.mem_cons.mp hp with rfl | hp
        · rfl
        · exact absurd hpd (Nat.not_lt.mpr (hd p hp))
      · have he : e ∈ e :: d :: es := List.mem_cons_self
        have hd' : d ∈ e :: d :: es := List.mem_cons_of_mem e List.mem_cons_self
        rintro (⟨ho, q, hq, hqo, hall⟩ | ⟨-, hall⟩)
        · have hle := head_le hs q hq
          have hdo := hd o (List.mem_of_ne_of_mem (by omega) ho)
          rcases Nat.eq_or_lt_of_le hdo with rfl | hdo
          · rfl
          -- Both places before this one would be the only one there.
          · have heq := hall e he (by omega)
            have hdq := hall d hd' hdo
            omega
        · have heo := hall e he
          have hdo := hall d hd'
          omega

end Places

/-! Names that repeat. -/

/-- If the first violation is a repeated name, it is not a blank one. -/
def RepeatsNames (es : List Error) : Prop :=
  ∀ owner name, es.head? = some (.duplicate owner name) → IsName name

theorem RepeatsNames.append {es fs : List Error} (he : RepeatsNames es)
    (hf : es = [] → RepeatsNames fs) : RepeatsNames (es ++ fs) := by
  cases es with
  | nil => exact hf rfl
  | cons e es => exact he

theorem repeatsNames_flatMap {α : Type} {violations : α → List Error} {xs : List α}
    (h : ∀ x ∈ xs, RepeatsNames (violations x)) : RepeatsNames (xs.flatMap violations) := by
  induction xs with
  | nil => exact nofun
  | cons x xs ih =>
    rw [List.forall_mem_cons] at h
    exact h.1.append fun _ => ih h.2

theorem repeatsNames_blankNames (kind : Kind) (names : List String) :
    RepeatsNames (blankNames kind names) := by
  intro owner name h
  obtain ⟨n, -, hn⟩ := List.mem_map.mp (List.mem_of_head? h)
  cases hn

theorem repeatsNames_repeatedName {owner : Owner} {names : List String} (h : ∀ n ∈ names, IsName n) :
    RepeatsNames (repeatedName owner names) := by
  intro o name hd
  obtain ⟨n, hn, he⟩ := List.mem_map.mp (List.mem_of_head? hd)
  cases he
  rw [Option.mem_toList, firstAgain?, Option.map_eq_some_iff] at hn
  obtain ⟨p, hp, rfl⟩ := hn
  have hm := List.find?_some hp
  exact h p.1 (List.mem_of_mem_take (of_decide_eq_true hm))

/-- A name and a list of names with one owner, as all declarations with items check them. -/
theorem repeatsNames_items (kind item : Kind) (owner : Owner) (name : String) (names : List String) :
    RepeatsNames (blankNames kind [name] ++ blankNames item names ++ repeatedName owner names) := by
  refine ((repeatsNames_blankNames kind [name]).append fun _ =>
    repeatsNames_blankNames item names).append fun h => repeatsNames_repeatedName ?_
  exact blankNames_eq_nil_iff.mp (List.append_eq_nil_iff.mp h).2

theorem Member.repeatsNames (m : Member) : RepeatsNames m.violations := by
  cases m with
  | enum e => exact repeatsNames_items .enum .member (.enum e.name) e.name _
  | cls c => exact repeatsNames_items .cls .field (.cls c.name) c.name _
  | var v => exact repeatsNames_blankNames .var [v.name]
  | func f => exact repeatsNames_items .func .param (.func f.name) f.name _

theorem Member.isName {m : Member} (h : m.violations = []) : IsName m.name := by
  cases m with
  | enum e => exact ((e.violations_eq_nil_iff).mp h).1
  | cls c => exact ((c.violations_eq_nil_iff).mp h).1
  | var v => exact (v.violations_eq_nil_iff).mp h
  | func f => exact ((f.violations_eq_nil_iff).mp h).1

theorem Namespace.repeatsNames (n : Namespace) : RepeatsNames n.violations := by
  rw [violations, ← flatMap_members, ← map_members_name]
  refine ((repeatsNames_blankNames .space [n.name]).append fun _ =>
    repeatsNames_flatMap fun m _ => m.repeatsNames).append fun h => repeatsNames_repeatedName ?_
  have hm := List.flatMap_eq_nil_iff.mp (List.append_eq_nil_iff.mp h).2
  exact List.forall_mem_map.mpr fun m hmem => Member.isName (hm m hmem)

theorem Declaration.repeatsNames (d : Declaration) : RepeatsNames d.violations := by
  rcases d with a | m | n
  · exact repeatsNames_blankNames .alias [a.name]
  · exact m.repeatsNames
  · exact n.repeatsNames

theorem Declaration.isName {d : Declaration} (h : d.violations = []) : IsName d.name := by
  rcases d with a | m | n
  · exact (a.violations_eq_nil_iff).mp h
  · exact Member.isName h
  · exact ((n.violations_eq_nil_iff).mp h).name

theorem File.repeatsNames (f : File) : RepeatsNames f.violations := by
  rw [violations, ← flatMap_declarations, ← map_declarations_name]
  refine (repeatsNames_flatMap fun d _ => d.repeatsNames).append fun h =>
    repeatsNames_repeatedName ?_
  exact List.forall_mem_map.mpr fun d hmem => Declaration.isName (List.flatMap_eq_nil_iff.mp h d hmem)

/-! Spans. -/

namespace Source

/-- An entry of the name behind the first entry of its owner, if the owner has a name and an entry. -/
def EntryBehind (source : String) (owner : Option String) (name : String) (o : Nat) : Prop :=
  NamedAt source name o ∧ ∀ n ∈ owner, ∀ q, IsFirst (NamedAt source n) q → q < o

theorem searchStart_le_iff {source : String} {owner : Option String}
    (h : ∀ n ∈ owner, Searchable n) (o : Nat) :
    searchStart source owner ≤ o ↔ ∀ n ∈ owner, ∀ q, IsFirst (NamedAt source n) q → q < o := by
  cases owner with
  | none => simp [searchStart]
  | some n =>
    have hfirst := head?_eq_some_iff (pairwise_nameEntries source n) (mem_nameEntries (h n rfl))
    simp only [searchStart, Option.mem_some_iff, forall_eq', ← hfirst]
    cases nameEntries source n with
    | nil => simp
    | cons e es =>
      rw [List.head?_cons]
      constructor
      · rintro hle q ⟨rfl⟩
        exact hle
      · exact fun hlt => hlt e rfl

variable {source name : String} {owner : Option String}

/-- The entries that the search looks at, from the first to the last. -/
theorem entries_behind (hn : Searchable name) (ho : ∀ n ∈ owner, Searchable n) :
    ((nameEntries source name).filter (searchStart source owner ≤ ·)).Pairwise (· < ·) ∧
      ∀ o, o ∈ (nameEntries source name).filter (searchStart source owner ≤ ·) ↔
        EntryBehind source owner name o := by
  refine ⟨(pairwise_nameEntries source name).filter _, fun o => ?_⟩
  rw [List.mem_filter, mem_nameEntries hn, decide_eq_true_eq, searchStart_le_iff ho]
  rfl

theorem map_spanOfEntry_eq_some_iff (x : Option Nat) (o : Nat) :
    x.map (spanOfEntry name) = some (spanOfEntry name o) ↔ x = some o := by
  have hinj : ∀ q, spanOfEntry name q = spanOfEntry name o ↔ q = o := fun q => by
    unfold spanOfEntry
    split <;> simp
  cases x with
  | none => simp
  | some q => simp [hinj]

theorem nameSpan_eq_none_iff (hn : Searchable name) (ho : ∀ n ∈ owner, Searchable n) (skip : Nat) :
    nameSpan source name owner skip = none ↔ ∀ o, ¬ EntryBehind source owner name o := by
  simp only [← (entries_behind hn ho).2, ← List.eq_nil_iff_forall_not_mem]
  simp only [nameSpan, Option.map_eq_none_iff, Option.or_eq_none_iff, List.head?_eq_none_iff]
  constructor
  · exact fun h => h.2
  · intro h
    simp [h]

/-- The span of what is searched for as the first entry. -/
theorem nameSpan_first_iff (hn : Searchable name) (ho : ∀ n ∈ owner, Searchable n) (o : Nat) :
    nameSpan source name owner 0 = some (spanOfEntry name o) ↔
      IsFirst (EntryBehind source owner name) o := by
  obtain ⟨hs, hP⟩ := @entries_behind source name owner hn ho
  rw [← head?_eq_some_iff hs hP, ← map_spanOfEntry_eq_some_iff, nameSpan, ← List.head?_eq_getElem?,
    Option.or_self]

/-- The span of what is searched for as the second entry: a text with one entry has no better one. -/
theorem nameSpan_second_iff (hn : Searchable name) (ho : ∀ n ∈ owner, Searchable n) (o : Nat) :
    nameSpan source name owner 1 = some (spanOfEntry name o) ↔
      IsSecond (EntryBehind source owner name) o ∨ IsOnly (EntryBehind source owner name) o := by
  obtain ⟨hs, hP⟩ := @entries_behind source name owner hn ho
  rw [← second_or_head?_eq_some_iff hs hP, ← map_spanOfEntry_eq_some_iff, nameSpan]

end Source

namespace Manifest

/-- A text whose declarations are at fault is not loaded, and the first violation is located in it. -/
theorem load_eq_error {format : Format} {source : String} {f : File} {e : Error}
    (hd : decode format source = .ok f) (hv : f.violations.head? = some e) (filename : String) :
    load format source filename = .error (.invalid filename e.message (locate source e)) := by
  have he : f.validate = .error e := by
    rw [File.validate_eq_firstOf, firstOf_eq_error_iff]
    exact hv
  simp only [load, hd, he]

/-- Loading a text gives one error, and that has one span. -/
theorem span_eq {r : Except LoadError File} {filename filename' message message' : String}
    {span span' : Option Span} (h : r = .error (.invalid filename message span))
    (h' : r = .error (.invalid filename' message' span')) : span = span' := by
  have he := h.symm.trans h'
  rw [Except.error.injEq, LoadError.invalid.injEq] at he
  exact he.2.2

/--
A repeated name is located at the second entry of the name behind the first entry of its owner's name,
or at its only entry there. Which of them belongs to the item that repeats the name does not matter.
-/
theorem duplicate_span_iff {format : Format} {source : String} {f : File} {owner : Owner}
    {name : String} (hd : decode format source = .ok f)
    (hv : f.violations.head? = some (.duplicate owner name)) (hn : Searchable name)
    (ho : ∀ n ∈ owner.name?, Searchable n) (filename : String) :
    ∃ span, load format source filename =
        .error (.invalid filename (Error.duplicate owner name).message span) ∧
      (span = none ↔ ∀ o, ¬ EntryBehind source owner.name? name o) ∧
      ∀ o, span = some ⟨o + 1, name.utf8ByteSize⟩ ↔
        IsSecond (EntryBehind source owner.name? name) o ∨
          IsOnly (EntryBehind source owner.name? name) o := by
  refine ⟨_, load_eq_error hd hv filename, nameSpan_eq_none_iff hn ho 1, fun o => ?_⟩
  obtain ⟨c, hc, -⟩ := f.repeatsNames owner name hv
  have hspan : spanOfEntry name o = ⟨o + 1, name.utf8ByteSize⟩ := by
    have hne : ¬ name.isEmpty := by
      rw [String.isEmpty_iff]
      rintro rfl
      simp at hc
    rw [spanOfEntry, if_neg hne]
  rw [← hspan]
  exact nameSpan_second_iff hn ho o

/-! A function that repeats a parameter, behind a variable with the name of both. -/

namespace Repeated

def opening : String :=
  "[[variables]]\nname = \"x\"\n\n[[functions]]\nname = \"f\"\nparams = [\x7b name = \"x\" \x7d, \x7b name = "

def text : String := opening ++ "\"x\" \x7d]\n"

def file : File where
  vars := [{ name := "x" }]
  functions := [{ name := "f", params := [{ name := "x" }, { name := "x" }] }]

theorem duplicate_span_repeated :
    decode .toml text = .ok file ∧
    file.violations.head? = some (.duplicate (.func "f") "x") ∧
    Searchable "x" ∧ (∀ n ∈ (Owner.func "f").name?, Searchable n) ∧
    (IsSecond (EntryBehind text (some "f") "x") opening.utf8ByteSize ∨
      IsOnly (EntryBehind text (some "f") "x") opening.utf8ByteSize) := by
  have hd : decode .toml text = .ok file := by decide +kernel
  have hv : file.violations.head? = some (.duplicate (.func "f") "x") := by decide +kernel
  have hl : locate text (.duplicate (.func "f") "x") =
      some ⟨opening.utf8ByteSize + 1, "x".utf8ByteSize⟩ := by decide +kernel
  have hn : Searchable "x" := by decide
  have ho : ∀ n ∈ (Owner.func "f").name?, Searchable n := by
    rintro n ⟨rfl⟩
    decide
  obtain ⟨span, hs, -, hspan⟩ := duplicate_span_iff hd hv hn ho standardFilename
  have he := span_eq hs (load_eq_error hd hv standardFilename)
  exact ⟨hd, hv, hn, ho, (hspan _).mp (he.trans hl)⟩

end Repeated

/-!
A function that repeats a parameter, behind one with a parameter that has the function's name: the
search begins at that parameter, and the first `a` of the function is the second behind it.
-/
namespace Shadowed

def opening : String :=
  "[[functions]]\nname = \"g\"\nparams = [\x7b name = \"f\" \x7d, \x7b name = \"a\" \x7d]\n\n" ++
    "[[functions]]\nname = \"f\"\nparams = [\x7b name = \""

def between : String := "\" \x7d, \x7b name = \""

/-- The text with these names for the parameters of the second function. -/
def text (first second : String) : String :=
  opening ++ first ++ between ++ second ++ "\" \x7d]\n"

def file (first second : String) : File where
  functions := [{ name := "g", params := [{ name := "f" }, { name := "a" }] },
    { name := "f", params := [{ name := first }, { name := second }] }]

/-- The span holds the first of the two parameters: what is written there names the first. -/
theorem duplicate_span_shadowed :
    decode .toml (text "a" "a") = .ok (file "a" "a") ∧
    (file "a" "a").violations.head? = some (.duplicate (.func "f") "a") ∧
    load .toml (text "a" "a") standardFilename =
      .error (.invalid standardFilename "duplicate parameter 'a' in function 'f'"
        (some ⟨opening.utf8ByteSize, 1⟩)) ∧
    opening.utf8ByteSize ≠ (opening ++ "a" ++ between).utf8ByteSize ∧
    decode .toml (text "b" "a") = .ok (file "b" "a") ∧
    decode .toml (text "a" "b") = .ok (file "a" "b") := by
  have hd : decode .toml (text "a" "a") = .ok (file "a" "a") := by decide +kernel
  have hv : (file "a" "a").violations.head? = some (.duplicate (.func "f") "a") := by decide +kernel
  have hl : locate (text "a" "a") (.duplicate (.func "f") "a") =
      some ⟨opening.utf8ByteSize, 1⟩ := by decide +kernel
  have he := load_eq_error hd hv standardFilename
  rw [hl] at he
  exact ⟨hd, hv, he, by decide +kernel, by decide +kernel, by decide +kernel⟩

end Shadowed

/-- A name with nothing in it or only blanks is located at the first entry of the empty name. -/
theorem emptyName_span_iff {format : Format} {source : String} {f : File} {kind : Kind}
    (hd : decode format source = .ok f) (hv : f.violations.head? = some (.emptyName kind))
    (filename : String) :
    ∃ span, load format source filename =
        .error (.invalid filename (Error.emptyName kind).message span) ∧
      (span = none ↔ ∀ o, ¬ NamedAt source "" o) ∧
      ∀ o, span = some ⟨o, 2⟩ ↔ IsFirst (NamedAt source "") o := by
  have hn : Searchable "" := by decide
  have hentry : EntryBehind source none "" = NamedAt source "" :=
    funext fun o => propext (and_iff_left nofun)
  have hnone := @nameSpan_eq_none_iff source "" none hn nofun 0
  have hfirst := @nameSpan_first_iff source "" none hn nofun
  rw [hentry] at hnone hfirst
  exact ⟨_, load_eq_error hd hv filename, hnone, hfirst⟩

/-! A variable without a name, behind a description that is empty too. -/

namespace Nameless

def opening : String :=
  "[[types]]\nname = \"Id\"\ntype = \"string\"\ndesc = \"\"\n\n[[variables]]\nname = "

def text : String := opening ++ "\"\"\n"

def file : File where
  types := [{ name := "Id", type := .named "string" }]
  vars := [{ name := "" }]

theorem emptyName_span_nameless :
    decode .toml text = .ok file ∧
    file.violations.head? = some (.emptyName .var) ∧
    IsFirst (NamedAt text "") opening.utf8ByteSize := by
  have hd : decode .toml text = .ok file := by decide +kernel
  have hv : file.violations.head? = some (.emptyName .var) := by decide +kernel
  have hl : locate text (.emptyName .var) = some ⟨opening.utf8ByteSize, 2⟩ := by decide +kernel
  obtain ⟨span, hs, -, hspan⟩ := emptyName_span_iff hd hv standardFilename
  have he := span_eq hs (load_eq_error hd hv standardFilename)
  exact ⟨hd, hv, (hspan _).mp (he.trans hl)⟩

end Nameless

/-! A variable with a blank for its name. The name is at fault, and what is searched for is the empty one. -/

namespace Blank

def text (name : String) : String := "[[variables]]\nname = \"" ++ name ++ "\"\n"

def file (name : String) : File where
  vars := [{ name := name }]

theorem emptyName_span_blank :
    decode .toml (text " ") = .ok (file " ") ∧
    (file " ").violations.head? = some (.emptyName .var) ∧
    load .toml (text " ") standardFilename =
      .error (.invalid standardFilename "variable name must not be empty" none) ∧
    decode .toml (text "v") = .ok (file "v") := by
  have hd : decode .toml (text " ") = .ok (file " ") := by decide +kernel
  have hv : (file " ").violations.head? = some (.emptyName .var) := by decide +kernel
  have hl : locate (text " ") (.emptyName .var) = none := by decide +kernel
  have he := load_eq_error hd hv standardFilename
  rw [hl] at he
  exact ⟨hd, hv, he, by decide +kernel⟩

end Blank

end Manifest
end Ambient
