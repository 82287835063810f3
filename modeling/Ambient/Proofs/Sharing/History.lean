import Ambient.Workspace.Command
import Mathlib.Data.List.Basic

/-!
What a run of commands adds to which namespace. A namespace shows its members as they are now: what it
renders and whether it is valid is told by the additions of the run and the contents of the cells.
-/
namespace Ambient

namespace Cell

def members : Cell → List Nat
  | .group g => g.members
  | _ => []

def kind? : Cell → Option Kind
  | .member m => some m.kind
  | _ => none

/-- The cell after a change, if the change fits it. -/
def changed (f : Cell → Option Cell) (c : Cell) : Cell := (f c).getD c

theorem members_changed_edit (e : Edit) (c : Cell) : (c.changed e.apply).members = c.members := by
  rcases c with (_ | _ | _ | _) | a | g <;> cases e <;> rfl

theorem kind?_changed_edit (e : Edit) (c : Cell) : (c.changed e.apply).kind? = c.kind? := by
  rcases c with (_ | _ | _ | _) | a | g <;> cases e <;> rfl

theorem kind?_changed_add (r : Nat) (c : Cell) :
    (c.changed (Workspace.addMember r)).kind? = c.kind? := by
  cases c <;> rfl

end Cell

namespace Workspace

/-- The cells that a namespace refers to. -/
def membersAt (w : Workspace) (s : Nat) : List Nat := (w.cell? s).elim [] Cell.members

def kind? (w : Workspace) (r : Nat) : Option Kind := (w.cell? r).bind Cell.kind?

/-- The workspace with a change of one cell. -/
def modify (w : Workspace) (r : Nat) (f : Cell → Cell) : Workspace :=
  { w with cells := w.cells.modify r f }

theorem cell?_modify (w : Workspace) (r : Nat) (f : Cell → Cell) (s : Nat) :
    (w.modify r f).cell? s = (w.cell? s).map fun c => if r = s then f c else c := by
  simp [cell?, modify, List.getElem?_modify]

theorem find?_eq_some_iff {w : Workspace} {handle : String} {r : Nat} {c : Cell} :
    w.find? handle = some (r, c) ↔ w.resolve? handle = some r ∧ w.cell? r = some c := by
  simp only [find?, Option.bind_eq_bind, Option.bind_eq_some_iff, Option.pure_def, Option.some.injEq,
    Prod.mk.injEq]
  constructor
  · rintro ⟨r', hr, c', hc, rfl, rfl⟩
    exact ⟨hr, hc⟩
  · rintro ⟨hr, hc⟩
    exact ⟨r, hr, c, hc, rfl, rfl⟩

theorem find?_of_resolve {w : Workspace} {handle : String} {r : Nat}
    (h : w.resolve? handle = some r) : w.find? handle = (w.cell? r).map fun c => (r, c) := by
  rw [find?, h]
  cases hc : w.cell? r <;> simp [hc]

theorem find?_of_unresolved {w : Workspace} {handle : String} (h : w.resolve? handle = none) :
    w.find? handle = none := by
  rw [find?, h]
  rfl

theorem modify_eq_set {w : Workspace} {r : Nat} {c : Cell} (h : w.cell? r = some c)
    (f : Cell → Cell) : w.modify r f = w.set r (f c) := by
  have hr : w.cells.modify r f = w.cells.set r (f c) := by
    refine List.ext_getElem? fun i => ?_
    rw [List.getElem?_modify, List.getElem?_set]
    by_cases hi : r = i
    · subst hi
      have hlt : r < w.cells.length := (List.getElem?_eq_some_iff.mp h).1
      have hc : w.cells[r]? = some c := h
      rw [hc, if_pos rfl, if_pos hlt]
      simp
    · simp [hi]
  rw [modify, set, hr]

theorem modify_eq_self {w : Workspace} {r : Nat} {f : Cell → Cell}
    (h : ∀ c, w.cell? r = some c → f c = c) : w.modify r f = w := by
  have hr : w.cells.modify r f = w.cells := by
    refine List.ext_getElem? fun i => ?_
    rw [List.getElem?_modify]
    by_cases hi : r = i
    · subst hi
      cases hc : w.cells[r]? with
      | none => rfl
      | some c => simp [h c hc]
    · simp [hi]
  rw [modify, hr]

/-- A change that does not fit leaves the cell as it is. -/
theorem change_fst {w : Workspace} {handle : String} {r : Nat} (h : w.resolve? handle = some r)
    (f : Cell → Option Cell) : (w.change handle f).1 = w.modify r (Cell.changed f) := by
  rw [change, find?_of_resolve h]
  cases hc : w.cell? r with
  | none => exact (modify_eq_self fun c h => absurd (hc.symm.trans h) nofun).symm
  | some c =>
    cases hf : f c with
    | none =>
      simp only [Option.map_some, hf]
      refine (modify_eq_self fun c' h => ?_).symm
      obtain rfl := Option.some.inj (hc.symm.trans h)
      rw [Cell.changed, hf, Option.getD_none]
    | some c' =>
      simp only [Option.map_some, hf]
      rw [modify_eq_set hc, Cell.changed, hf, Option.getD_some]

theorem change_of_unresolved {w : Workspace} {handle : String} (h : w.resolve? handle = none)
    (f : Cell → Option Cell) : w.change handle f = (w, .refused) := by
  rw [change, find?_of_unresolved h]

theorem cell?_place (w : Workspace) (handle : String) (c : Cell) (s : Nat) :
    (w.place handle c).1.cell? s = if w.cells.length = s then some c else w.cell? s := by
  change (w.cells ++ [c])[s]? = if w.cells.length = s then some c else w.cells[s]?
  by_cases hs : w.cells.length = s
  · rw [if_pos hs, ← hs, List.getElem?_concat_length]
  · rw [if_neg hs]
    rcases Nat.lt_or_gt_of_ne hs with h | h
    · rw [List.getElem?_eq_none (by simp; omega), List.getElem?_eq_none (by omega)]
    · rw [List.getElem?_append_left h]

theorem kinds_modify {f : Cell → Cell} (hk : ∀ c, (f c).kind? = c.kind?) (w : Workspace) (r s : Nat)
    (k : Kind) (h : w.kind? s = some k) : (w.modify r f).kind? s = some k := by
  rw [kind?] at h ⊢
  rw [cell?_modify]
  cases hc : w.cell? s with
  | none => simp [hc] at h
  | some c =>
    rw [hc] at h
    by_cases hr : r = s
    · simpa [hr, hk] using h
    · simpa [hr] using h

/-! Additions. -/

/-- A reference that a namespace has got: its cell and the cell of the member. -/
abbrev Addition := Nat × Nat

/-- The references of the cell that is about to be put in. -/
def initial (w : Workspace) (c : Cell) : List Addition := c.members.map fun r => (w.cells.length, r)

/-- A reference to a cell that is added to a handle's cell, if that is a namespace. -/
def toGroup (w : Workspace) (target : String) (r : Nat) : List Addition :=
  match w.find? target with
  | some (s, .group _) => [(s, r)]
  | _ => []

mutual

/-- What a command adds to which namespace, in order. -/
def Command.additions (w : Workspace) : Command → List Addition
  | .make _ c => w.initial c
  | .makeGroup _ name members =>
    match members.mapM w.resolve? with
    | some refs => w.initial (.group ⟨name, refs⟩)
    | none => []
  | .clone _ target =>
    match w.find? target with
    | some (_, c) => w.initial c
    | none => []
  | .add target member =>
    match w.resolve? member with
    | some r => w.toGroup target r
    | none => []
  | .borrowed target steps =>
    match w.resolve? target with
    | some r => additionsAll (w.hold r) steps
    | none => []
  | _ => []

/-- What a run adds to which namespace, in order. -/
def additionsAll (w : Workspace) : List Command → List Addition
  | [] => []
  | c :: cs => c.additions w ++ additionsAll (c.run w).1 cs

end

/-- The members that were added to one namespace. -/
def addedTo (s : Nat) (as : List Addition) : List Nat := (as.filter (·.1 = s)).map (·.2)

theorem addedTo_append (s : Nat) (as bs : List Addition) :
    addedTo s (as ++ bs) = addedTo s as ++ addedTo s bs := by
  simp [addedTo]

theorem addedTo_initial (w : Workspace) (c : Cell) (s : Nat) :
    addedTo s (w.initial c) = if w.cells.length = s then c.members else [] := by
  by_cases h : w.cells.length = s <;>
    simp [addedTo, initial, h, List.filter_map, Function.comp_def]

/-- What commands do to a workspace besides new handles and contents: these additions. -/
structure Evolves (w w' : Workspace) (as : List Addition) : Prop where
  held : w'.held = w.held
  members : ∀ s, w'.membersAt s = w.membersAt s ++ addedTo s as
  kinds : ∀ r k, w.kind? r = some k → w'.kind? r = some k

namespace Evolves

variable {w w' : Workspace} {as : List Addition}

theorem refl (w : Workspace) : Evolves w w [] where
  held := rfl
  members _ := (List.append_nil _).symm
  kinds _ _ h := h

theorem trans {w₂ : Workspace} {bs : List Addition} (h : Evolves w w' as) (h' : Evolves w' w₂ bs) :
    Evolves w w₂ (as ++ bs) where
  held := h'.held.trans h.held
  members s := by rw [h'.members, h.members, addedTo_append, List.append_assoc]
  kinds r k hk := h'.kinds r k (h.kinds r k hk)

theorem bind (w : Workspace) (handle : String) (r : Nat) : Evolves w (w.bind handle r) [] where
  held := rfl
  members _ := (List.append_nil _).symm
  kinds _ _ h := h

theorem place (w : Workspace) (handle : String) (c : Cell) :
    Evolves w (w.place handle c).1 (w.initial c) where
  held := rfl
  members s := by
    rw [membersAt, membersAt, cell?_place, addedTo_initial]
    by_cases hs : w.cells.length = s
    · have hn : w.cell? s = none := List.getElem?_eq_none (Nat.le_of_eq hs)
      simp [hs, hn]
    · simp [hs]
  kinds r k h := by
    have hr : w.cells.length ≠ r := by
      rintro rfl
      rw [kind?, cell?, List.getElem?_eq_none (Nat.le_refl _)] at h
      cases h
    rw [kind?, cell?_place, if_neg hr]
    exact h

theorem modify {w : Workspace} {r : Nat} {f : Cell → Cell} (hk : ∀ c, (f c).kind? = c.kind?)
    {as : List Addition} (hm : ∀ s, (w.modify r f).membersAt s = w.membersAt s ++ addedTo s as) :
    Evolves w (w.modify r f) as where
  held := rfl
  members := hm
  kinds := kinds_modify hk w r

theorem edit (w : Workspace) (r : Nat) (e : Edit) :
    Evolves w (w.modify r (Cell.changed e.apply)) [] := by
  refine .modify (Cell.kind?_changed_edit e) fun s => ?_
  rw [membersAt, membersAt, cell?_modify]
  cases w.cell? s with
  | none => rfl
  | some c => by_cases hr : r = s <;> simp [hr, Cell.members_changed_edit, addedTo]

theorem add {w : Workspace} {s : Nat} {g : Group} (h : w.cell? s = some (.group g)) (r : Nat) :
    Evolves w (w.modify s (Cell.changed (addMember r))) [(s, r)] := by
  refine .modify (Cell.kind?_changed_add r) fun i => ?_
  rw [membersAt, membersAt, cell?_modify]
  by_cases hi : s = i
  · subst hi
    simp [h, addedTo, Cell.changed, addMember, Cell.members]
  · simp [hi, addedTo]

/-- Only a namespace gets a member. -/
theorem change_add (w : Workspace) (target : String) (r : Nat) :
    Evolves w (w.change target (addMember r)).1 (w.toGroup target r) := by
  rw [toGroup]
  cases hs : w.resolve? target with
  | none =>
    rw [change_of_unresolved hs, find?_of_unresolved hs]
    exact refl w
  | some s =>
    rw [change_fst hs, find?_of_resolve hs]
    cases hc : w.cell? s with
    | none =>
      rw [modify_eq_self fun c h => absurd (hc.symm.trans h) nofun]
      exact refl w
    | some c =>
      cases c with
      | group g => exact add hc r
      | _ =>
        rw [modify_eq_self fun c h => by obtain rfl := Option.some.inj (hc.symm.trans h); rfl]
        exact refl w

theorem borrowed {r : Nat} (h : Evolves (w.hold r) w' as) : Evolves w (w'.release r) as where
  held := by
    rw [release, h.held]
    exact List.erase_cons_head r w.held
  members := h.members
  kinds := h.kinds

end Evolves

mutual

theorem Command.evolves (w : Workspace) : (c : Command) → Evolves w (c.run w).1 (c.additions w)
  | .make handle c => .place w handle c
  | .makeGroup handle name members => by
    rw [Command.run, Command.additions]
    cases members.mapM w.resolve? with
    | none => exact .refl w
    | some refs => exact .place w handle _
  | .alias handle target => by
    rw [Command.run]
    cases w.find? target with
    | none => exact .refl w
    | some rc => exact .bind w handle rc.1
  | .clone handle target => by
    rw [Command.run, Command.additions]
    cases w.find? target with
    | none => exact .refl w
    | some rc => exact .place w handle rc.2
  | .get _ | .equal .. | .same .. | .render .. | .paramList .. | .paramAnnotations .. |
    .returnAnnotations .. | .validate _ => .refl w
  | .edit target e => by
    rw [Command.run]
    cases h : w.resolve? target with
    | none =>
      rw [change_of_unresolved h]
      exact .refl w
    | some r =>
      rw [change_fst h]
      exact .edit w r e
  | .add target member => by
    rw [Command.run, Command.additions]
    cases w.resolve? member with
    | none => exact .refl w
    | some r => exact .change_add w target r
  | .borrowed target steps => by
    rw [Command.run, Command.additions]
    cases w.resolve? target with
    | none => exact .refl w
    | some r => exact .borrowed (runAll_evolves (w.hold r) steps)

theorem runAll_evolves (w : Workspace) : (cs : List Command) →
    Evolves w (runAll w cs).1 (additionsAll w cs)
  | [] => .refl w
  | c :: cs => (Command.evolves w c).trans (runAll_evolves (c.run w).1 cs)

end

end Workspace

/-! Namespaces by value. -/

/-- A namespace of these members, those of each kind in their order here. -/
def Namespace.ofMembers (name : String) (ms : List Member) : Namespace where
  name := name
  functions := ms.filterMap fun
    | .func f => some f
    | _ => none
  classes := ms.filterMap fun
    | .cls c => some c
    | _ => none
  enums := ms.filterMap fun
    | .enum e => some e
    | _ => none
  vars := ms.filterMap fun
    | .var v => some v
    | _ => none

theorem map_filterMap_of_kind {α : Type} (kind : Kind) {get : Member → Option α} {mk : α → Member}
    (h : ∀ m, (get m).map mk = if m.kind = kind then some m else none) (ms : List Member) :
    (ms.filterMap get).map mk = ms.filter (·.kind = kind) := by
  rw [List.map_filterMap, funext h]
  induction ms with
  | nil => rfl
  | cons m ms ih => by_cases hm : m.kind = kind <;> simp [hm, ih]

theorem Namespace.members_ofMembers (name : String) (ms : List Member) :
    (ofMembers name ms).members =
      Workspace.memberKinds.flatMap fun kind => ms.filter (·.kind = kind) := by
  rw [members, ofMembers]
  dsimp only
  rw [map_filterMap_of_kind .enum, map_filterMap_of_kind .cls, map_filterMap_of_kind .var,
    map_filterMap_of_kind .func]
  · simp [Workspace.memberKinds]
  all_goals
    intro m
    cases m <;> rfl

namespace Workspace

/-- With nothing held, a namespace shows what its members' cells hold. -/
theorem sights_eq {w : Workspace} (h : w.held = []) (g : Group) :
    w.sights g = (Namespace.ofMembers g.name (g.members.filterMap w.member?)).sights := by
  have hs : w.sight? = fun r => (w.member? r).map .free := by
    funext r
    simp [sight?, h]
  have hf : ∀ rs : List Nat, rs.filterMap w.sight? = (rs.filterMap w.member?).map .free := by
    intro rs
    rw [hs, List.map_filterMap]
  rw [Namespace.sights, Namespace.members_ofMembers, sights, List.map_flatMap]
  refine List.flatMap_congr fun kind _ => ?_
  rw [hf, List.filter_map]
  rfl

/-- A run that starts with nothing held ends so. -/
theorem held_runAll (cs : List Command) : (runAll {} cs).1.held = [] := (runAll_evolves {} cs).held

/-- The members of a namespace are what the run has added to it. -/
theorem members_eq_addedTo {cs : List Command} {ns : String} {s : Nat} {g : Group}
    (h : (runAll {} cs).1.find? ns = some (s, .group g)) :
    g.members = addedTo s (additionsAll {} cs) := by
  have hm := (runAll_evolves {} cs).members s
  have hc : (runAll {} cs).1.cell? s = some (.group g) := (find?_eq_some_iff.mp h).2
  rw [membersAt, hc] at hm
  exact hm

/-- A namespace by value: what the run has added to the cell, as it is now. -/
def valueAfter (cs : List Command) (s : Nat) (name : String) : Namespace :=
  .ofMembers name ((addedTo s (additionsAll {} cs)).filterMap (runAll {} cs).1.member?)

theorem sights_runAll {cs : List Command} {ns : String} {s : Nat} {g : Group}
    (h : (runAll {} cs).1.find? ns = some (s, .group g)) :
    (runAll {} cs).1.sights g = (valueAfter cs s g.name).sights := by
  rw [sights_eq (held_runAll cs), valueAfter, members_eq_addedTo h]

theorem render_runAll {cs : List Command} {ns : String} {s : Nat} {g : Group}
    (h : (runAll {} cs).1.find? ns = some (s, .group g)) (dialect : String) (scope : Scope) :
    ((Command.render ns dialect scope).run (runAll {} cs).1).2 =
      .ofText (Dialect.read dialect >>= fun d => (valueAfter cs s g.name).render d scope) := by
  simp only [Command.run, ask, h, renderCell, sights_runAll h]
  rfl

theorem validate_runAll {cs : List Command} {ns : String} {s : Nat} {g : Group}
    (h : (runAll {} cs).1.find? ns = some (s, .group g)) :
    ((Command.validate ns).run (runAll {} cs).1).2 = .ofUnit (valueAfter cs s g.name).validate := by
  simp only [Command.run, ask, h, validateCell, sights_runAll h]
  rfl

end Workspace
end Ambient
