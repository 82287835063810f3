import Ambient.Proofs.Outcomes
import Ambient.Proofs.Sharing.History
import Ambient.Proofs.Validation
import Mathlib.Data.List.Forall2

/-!
The error of a namespace. Its members are walked kind by kind, and the first one at fault decides: a
member that is held for a change cannot be read, a function has no form in TypeScript, and a member may
be invalid. Whether names repeat is asked only of members that are free and valid.
-/
namespace Ambient

/-! The first fault. -/

/-- The error of the first item that is at fault. -/
def FirstFault {α : Type} (fault : α → Option Error) (xs : List α) (e : Error) : Prop :=
  ∃ before x after, xs = before ++ x :: after ∧ (∀ y ∈ before, fault y = none) ∧ fault x = some e

def errorOf? {α : Type} : Except Error α → Option Error
  | .error e => some e
  | .ok _ => none

section

variable {α β : Type} {xs : List α} {e : Error}

theorem firstFault_iff {fault : α → Option Error} :
    FirstFault fault xs e ↔ xs.findSome? fault = some e := by
  simp only [FirstFault, List.findSome?_eq_some_iff, and_comm]

theorem exists_firstFault_iff {fault : α → Option Error} :
    (∃ e, FirstFault fault xs e) ↔ ∃ x ∈ xs, fault x ≠ none := by
  simp only [firstFault_iff, ← Option.ne_none_iff_exists', ne_eq, List.findSome?_eq_none_iff]
  simp

/-- A walk that stops at the first error answers with the first fault. -/
theorem mapM_eq_error_iff {f : α → Except Error β} :
    xs.mapM f = .error e ↔ FirstFault (fun x => errorOf? (f x)) xs e := by
  rw [firstFault_iff]
  induction xs with
  | nil => simp [pure, Except.pure]
  | cons x xs ih =>
    rw [List.mapM_cons, List.findSome?_cons]
    cases hx : f x with
    | error e' => simp [errorOf?, bind, Except.bind]
    | ok y =>
      rw [errorOf?, ← ih]
      cases xs.mapM f <;> simp [bind, Except.bind, pure, Except.pure]

theorem map_eq_error_iff {f : α → β} {x : Except Error α} :
    (do let a ← x; return f a) = Except.error e ↔ x = .error e := by
  cases x <;> simp [bind, Except.bind, pure, Except.pure]

end

/-! The walk. -/

namespace Workspace

/-- The members of one kind, each with its cell, in the order in which they were added. -/
def walkOf (w : Workspace) (g : Group) (kind : Kind) : List (Nat × Member) :=
  (g.members.filterMap fun r => (w.member? r).map fun m => (r, m)).filter (·.2.kind = kind)

/-- All members: enumerations, classes, variables, functions. -/
def walk (w : Workspace) (g : Group) : List (Nat × Member) :=
  w.walkOf g .enum ++ w.walkOf g .cls ++ w.walkOf g .var ++ w.walkOf g .func

/-- A member as its namespace finds it. -/
def see (w : Workspace) (p : Nat × Member) : Sight :=
  if p.1 ∈ w.held then .held p.2.kind else .free p.2

theorem kind_see (w : Workspace) (p : Nat × Member) : (w.see p).kind = p.2.kind := by
  unfold see
  split <;> rfl

theorem sights_eq_map_walk (w : Workspace) (g : Group) : w.sights g = (w.walk g).map w.see := by
  have hkind : ∀ kind, (g.members.filterMap w.sight?).filter (·.kind = kind) =
      (w.walkOf g kind).map w.see := by
    intro kind
    have hsee : w.sight? = fun r => ((w.member? r).map fun m => (r, m)).map w.see := by
      funext r
      rw [sight?, Option.map_map]
      rfl
    rw [hsee, ← List.map_filterMap, List.filter_map, walkOf]
    simp only [Function.comp_def, kind_see]
  simp [sights, memberKinds, walk, hkind]

theorem mem_walk {w : Workspace} {g : Group} {p : Nat × Member} :
    p ∈ w.walk g ↔ p.1 ∈ g.members ∧ w.member? p.1 = some p.2 := by
  obtain ⟨r, m⟩ := p
  have hpair : (r, m) ∈ (g.members.filterMap fun r => (w.member? r).map fun m => (r, m)) ↔
      r ∈ g.members ∧ w.member? r = some m := by
    simp only [List.mem_filterMap, Option.map_eq_some_iff, Prod.mk.injEq]
    constructor
    · rintro ⟨s, hs, n, hn, rfl, rfl⟩
      exact ⟨hs, hn⟩
    · rintro ⟨hr, hm⟩
      exact ⟨r, hr, m, hm, rfl, rfl⟩
  simp only [walk, walkOf, List.mem_append, List.mem_filter, hpair, decide_eq_true_eq]
  cases m <;> simp [Member.kind]

/-! Faults. -/

/-- What keeps a member from being rendered. -/
def renderFault? (w : Workspace) (space : String) (d : Dialect) (p : Nat × Member) : Option Error :=
  if p.1 ∈ w.held then some (.inUse p.2.kind space)
  else if d = .typeScript ∧ p.2.kind = .func then some (.notImplemented .func .typeScript)
  else none

/-- What keeps a member from being found valid. -/
def validateFault? (w : Workspace) (space : String) (p : Nat × Member) : Option Error :=
  if p.1 ∈ w.held then some (.inUse p.2.kind space) else errorOf? p.2.validate

theorem errorOf?_renderedSight (w : Workspace) (space : String) (d : Dialect) (p : Nat × Member) :
    errorOf? (Namespace.renderedSight space d (w.see p)) = w.renderFault? space d p := by
  obtain ⟨r, m⟩ := p
  by_cases hr : r ∈ w.held
  · simp only [see, renderFault?, hr, ↓reduceIte]
    rfl
  · have hread : Namespace.renderedSight space d (.free m) = m.render d .inNamespace := rfl
    simp only [see, renderFault?, hr, ↓reduceIte, hread]
    cases m <;> cases d <;> rfl

theorem errorOf?_checkedName (w : Workspace) (space : String) (p : Nat × Member) :
    errorOf? (Namespace.checkedName space (w.see p)) = w.validateFault? space p := by
  obtain ⟨r, m⟩ := p
  by_cases hr : r ∈ w.held
  · simp only [see, validateFault?, hr, ↓reduceIte]
    rfl
  · have hread : Namespace.checkedName space (.free m) = (do m.validate; return m.name) := rfl
    simp only [see, validateFault?, hr, ↓reduceIte, hread]
    cases m.validate <;> rfl

theorem renderFault?_ne_none_iff {w : Workspace} {space : String} {d : Dialect} {p : Nat × Member} :
    w.renderFault? space d p ≠ none ↔ p.1 ∈ w.held ∨ d = .typeScript ∧ p.2.kind = .func := by
  unfold renderFault?
  by_cases hr : p.1 ∈ w.held
  · simp [hr]
  · by_cases hf : d = .typeScript ∧ p.2.kind = .func <;> simp [hr, hf]

theorem validateFault?_eq_none_iff {w : Workspace} {space : String} {p : Nat × Member} :
    w.validateFault? space p = none ↔ p.1 ∉ w.held ∧ p.2.validate = .ok () := by
  unfold validateFault?
  by_cases hr : p.1 ∈ w.held
  · simp [hr]
  · cases p.2.validate <;> simp [hr, errorOf?]

/-- A member that is free and valid is found by its name. -/
theorem checkedName_see {w : Workspace} {space : String} {p : Nat × Member}
    (h : w.validateFault? space p = none) :
    Namespace.checkedName space (w.see p) = .ok p.2.name := by
  obtain ⟨hr, hv⟩ := validateFault?_eq_none_iff.mp h
  have hread : Namespace.checkedName space (.free p.2) = (do p.2.validate; return p.2.name) := rfl
  rw [see, if_neg hr, hread, hv]
  rfl

theorem renderCell_eq_error_iff {w : Workspace} {g : Group} {d : Dialect} {scope : Scope}
    {e : Error} : w.renderCell d scope (.group g) = .error e ↔
      FirstFault (w.renderFault? g.name d) (w.walk g) e := by
  rw [renderCell, Namespace.renderSights, map_eq_error_iff, mapM_eq_error_iff, sights_eq_map_walk,
    firstFault_iff, firstFault_iff, List.findSome?_map]
  simp only [Function.comp_def, errorOf?_renderedSight]

theorem mapM_checkedName_eq_error_iff {w : Workspace} {g : Group} {e : Error} :
    (w.sights g).mapM (Namespace.checkedName g.name) = .error e ↔
      FirstFault (w.validateFault? g.name) (w.walk g) e := by
  rw [mapM_eq_error_iff, sights_eq_map_walk, firstFault_iff, firstFault_iff, List.findSome?_map]
  simp only [Function.comp_def, errorOf?_checkedName]

theorem mapM_checkedName_of_faultless {w : Workspace} {g : Group}
    (h : ∀ p ∈ w.walk g, w.validateFault? g.name p = none) :
    (w.sights g).mapM (Namespace.checkedName g.name) = .ok ((w.walk g).map (·.2.name)) := by
  rw [sights_eq_map_walk, List.mapM_map, mapM_eq_ok_iff, List.forall₂_map_right_iff,
    List.forall₂_same]
  exact fun p hp => checkedName_see (h p hp)

theorem validateCell_blank {w : Workspace} {g : Group} (hn : ¬ IsName g.name) :
    w.validateCell (.group g) = .error (.emptyName .space) := by
  have hname : requireName .space g.name = .error (.emptyName .space) := by
    have hblank : isBlankName g.name = true := by
      simpa [isBlankName, Text.isAllBlank, IsName] using hn
    rw [requireName, if_pos hblank]
  rw [validateCell, Namespace.validateSights, hname]
  rfl

theorem validateCell_named {w : Workspace} {g : Group} (hn : IsName g.name) :
    w.validateCell (.group g) =
      ((w.sights g).mapM (Namespace.checkedName g.name) >>= requireUnique (.space g.name)) := by
  have hname : requireName .space g.name = .ok () := by
    rw [requireName_eq_firstOf, firstOf_eq_ok_iff, blankNames_eq_nil_iff]
    exact List.forall_mem_singleton.mpr hn
  rw [validateCell, Namespace.validateSights, hname]
  rfl

/-- The names are compared once all members are free and valid. -/
theorem validateCell_of_faultless {w : Workspace} {g : Group} (hn : IsName g.name)
    (h : ∀ p ∈ w.walk g, w.validateFault? g.name p = none) :
    w.validateCell (.group g) =
      firstOf (repeatedName (.space g.name) ((w.walk g).map (·.2.name))) := by
  rw [validateCell_named hn, mapM_checkedName_of_faultless h, ← requireUnique_eq_firstOf]
  rfl

theorem validateCell_of_fault {w : Workspace} {g : Group} (hn : IsName g.name) {e : Error}
    (h : FirstFault (w.validateFault? g.name) (w.walk g) e) :
    w.validateCell (.group g) = .error e := by
  rw [validateCell_named hn, mapM_checkedName_eq_error_iff.mpr h]
  rfl

/-- The faults that a member finds in itself tell of a blank name, or of a name that the member repeats. -/
theorem not_mem_violations (m : Member) (s n : String) : .duplicate (.space s) n ∉ m.violations := by
  have hblank : ∀ kind names, Error.duplicate (.space s) n ∉ blankNames kind names := by
    simp [blankNames]
  have hitems : ∀ owner names, owner ≠ .space s →
      Error.duplicate (.space s) n ∉ repeatedName owner names := by
    intro owner names ho
    simp [repeatedName, ho]
  cases m with
  | enum e => simp [Member.violations, Enum.violations, hblank, hitems]
  | cls c => simp [Member.violations, Class.violations, hblank, hitems]
  | var v => simp [Member.violations, Variable.violations, hblank]
  | func f => simp [Member.violations, Function.violations, hblank, hitems]

theorem validateFault?_ne_repeat (w : Workspace) (space : String) (p : Nat × Member)
    (s n : String) : w.validateFault? space p ≠ some (.duplicate (.space s) n) := by
  unfold validateFault?
  split
  · simp
  · rw [p.2.validate_eq_firstOf]
    cases hv : p.2.violations with
    | nil => simp [firstOf, errorOf?]
    | cons e es =>
      have hm := not_mem_violations p.2 s n
      rw [hv, List.mem_cons, not_or] at hm
      simpa [firstOf, errorOf?] using fun he => hm.1 he.symm

/-- The errors of a namespace, told by the walk over its members. -/
structure FaultsInOrder (w : Workspace) (g : Group) (d : Dialect) (scope : Scope) : Prop where
  renderFails : (∃ e, w.renderCell d scope (.group g) = .error e) ↔
    ∃ r ∈ g.members, ∃ m, w.member? r = some m ∧ (r ∈ w.held ∨ d = .typeScript ∧ m.kind = .func)
  renderError : ∀ e, w.renderCell d scope (.group g) = .error e ↔
    FirstFault (w.renderFault? g.name d) (w.walk g) e
  validateBlank : ¬ IsName g.name → w.validateCell (.group g) = .error (.emptyName .space)
  validateFault : IsName g.name → ∀ e, FirstFault (w.validateFault? g.name) (w.walk g) e →
    w.validateCell (.group g) = .error e
  validateRest : IsName g.name → (∀ p ∈ w.walk g, w.validateFault? g.name p = none) →
    w.validateCell (.group g) =
      firstOf (repeatedName (.space g.name) ((w.walk g).map (·.2.name)))
  validateRepeat : ∀ n, w.validateCell (.group g) = .error (.duplicate (.space g.name) n) →
    ∀ r ∈ g.members, ∀ m, w.member? r = some m → r ∉ w.held ∧ m.validate = .ok ()

/--
A namespace answers with the error of its first member at fault, in the order of the walk. Its own name
comes before all members, and names that repeat come after them.
-/
theorem first_fault_decides (w : Workspace) (g : Group) (d : Dialect) (scope : Scope) :
    w.FaultsInOrder g d scope where
  renderFails := by
    simp only [renderCell_eq_error_iff, exists_firstFault_iff, renderFault?_ne_none_iff, Prod.exists,
      mem_walk]
    constructor
    · rintro ⟨r, m, ⟨hr, hm⟩, hf⟩
      exact ⟨r, hr, m, hm, hf⟩
    · rintro ⟨r, hr, m, hm, hf⟩
      exact ⟨r, m, ⟨hr, hm⟩, hf⟩
  renderError e := renderCell_eq_error_iff
  validateBlank := validateCell_blank
  validateFault hn e := validateCell_of_fault hn
  validateRest := validateCell_of_faultless
  validateRepeat n h r hr m hm := by
    by_cases hn : IsName g.name
    · by_cases hf : ∀ p ∈ w.walk g, w.validateFault? g.name p = none
      · exact validateFault?_eq_none_iff.mp (hf (r, m) (mem_walk.mpr ⟨hr, hm⟩))
      · simp only [not_forall, exists_prop] at hf
        obtain ⟨e, he⟩ := exists_firstFault_iff.mpr hf
        rw [validateCell_of_fault hn he, Except.error.injEq] at h
        obtain ⟨before, p, after, -, -, hp⟩ := he
        exact absurd (h ▸ hp) (w.validateFault?_ne_repeat g.name p g.name n)
    · rw [validateCell_blank hn] at h
      cases h

/-- A function that is held is in use, also where it has no form. -/
example : renderCell { cells := [.member (.func { name := "f" })], held := [0] } .typeScript .topLevel
    (.group { name := "n", members := [0] }) = .error (.inUse .func "n") := rfl

end Workspace
end Ambient
