import Ambient.Proofs.Sharing.History
import Mathlib.Data.Option.Basic
import Mathlib.Logic.Relation

/-!
Steps that can be taken in either order. A change and an addition lead to the same workspace; two
additions of members of different kinds lead to workspaces that no later command tells apart.
-/
namespace Ambient
namespace Workspace

/-! Workspaces that differ in the order of members of different kinds. -/

/-- Two neighbours of different kinds may have changed places. -/
inductive Swapped (w : Workspace) : List Nat → List Nat → Prop
  | same (rs : List Nat) : Swapped w rs rs
  | swap (before after : List Nat) {a b : Nat} {k k' : Kind} (ha : w.kind? a = some k)
      (hb : w.kind? b = some k') (hne : k ≠ k') :
      Swapped w (before ++ a :: b :: after) (before ++ b :: a :: after)

inductive CellAlike (w : Workspace) : Cell → Cell → Prop
  | same (c : Cell) : CellAlike w c c
  | group (name : String) {rs rs' : List Nat} (h : Swapped w rs rs') :
      CellAlike w (.group ⟨name, rs⟩) (.group ⟨name, rs'⟩)

structure Alike (w v : Workspace) : Prop where
  handles : w.handles = v.handles
  held : w.held = v.held
  cells : ∀ r, Option.Rel (CellAlike w) (w.cell? r) (v.cell? r)

theorem Swapped.concat {w : Workspace} {rs rs' : List Nat} (h : Swapped w rs rs') (r : Nat) :
    Swapped w (rs ++ [r]) (rs' ++ [r]) := by
  cases h with
  | same => exact .same _
  | swap before after ha hb hne =>
    rw [List.append_assoc, List.append_assoc]
    exact .swap before (after ++ [r]) ha hb hne

theorem Swapped.mono {w v : Workspace} {rs rs' : List Nat} (h : Swapped w rs rs')
    (hk : ∀ r k, w.kind? r = some k → v.kind? r = some k) : Swapped v rs rs' := by
  cases h with
  | same => exact .same _
  | swap before after ha hb hne => exact .swap before after (hk _ _ ha) (hk _ _ hb) hne

theorem CellAlike.mono {w v : Workspace} {c c' : Cell} (h : CellAlike w c c')
    (hk : ∀ r k, w.kind? r = some k → v.kind? r = some k) : CellAlike v c c' := by
  cases h with
  | same => exact .same c
  | group name h => exact .group name (h.mono hk)

theorem kind?_eq (w : Workspace) (r : Nat) : w.kind? r = (w.member? r).map Member.kind := by
  rw [kind?, member?]
  rcases w.cell? r with _ | (_ | _ | _) <;> rfl

theorem exists_sight {w : Workspace} {r : Nat} {k : Kind} (h : w.kind? r = some k) :
    ∃ x, w.sight? r = some x ∧ x.kind = k := by
  rw [kind?_eq, Option.map_eq_some_iff] at h
  obtain ⟨m, hm, rfl⟩ := h
  refine ⟨if r ∈ w.held then .held m.kind else .free m, by rw [sight?, hm]; rfl, ?_⟩
  split <;> rfl

/-- A namespace sorts its members by kind, so it shows the same after the exchange. -/
theorem Swapped.sights {w : Workspace} {rs rs' : List Nat} (h : Swapped w rs rs') (name : String) :
    w.sights ⟨name, rs⟩ = w.sights ⟨name, rs'⟩ := by
  cases h with
  | same => rfl
  | swap before after ha hb hne =>
    obtain ⟨x, hx, rfl⟩ := exists_sight ha
    obtain ⟨y, hy, rfl⟩ := exists_sight hb
    refine List.flatMap_congr fun kind _ => ?_
    simp only [List.filterMap_append, List.filterMap_cons, hx, hy, List.filter_append]
    by_cases hk : x.kind = kind
    · have hk' : y.kind ≠ kind := fun h => hne (hk.trans h.symm)
      simp [hk, hk']
    · simp [List.filter_cons, hk]

theorem relOfKinds {w v : Workspace} {x y : Option Cell} (h : Option.Rel (CellAlike w) x y)
    (hk : ∀ r k, w.kind? r = some k → v.kind? r = some k) : Option.Rel (CellAlike v) x y := by
  cases h with
  | none => exact .none
  | some hc => exact .some (hc.mono hk)

namespace Alike

variable {w v : Workspace}

theorem refl (w : Workspace) : Alike w w where
  handles := rfl
  held := rfl
  cells r := by
    cases w.cell? r with
    | none => exact .none
    | some c => exact .some (.same c)

theorem length (h : Alike w v) : w.cells.length = v.cells.length := by
  have hn : ∀ r, w.cells.length ≤ r ↔ v.cells.length ≤ r := fun r => by
    rw [← List.getElem?_eq_none_iff, ← List.getElem?_eq_none_iff]
    have hr := h.cells r
    rw [cell?, cell?] at hr
    generalize w.cells[r]? = x, v.cells[r]? = y at hr
    cases hr <;> simp
  exact Nat.le_antisymm ((hn _).mpr (Nat.le_refl _)) ((hn _).mp (Nat.le_refl _))

theorem resolve? (h : Alike w v) : w.resolve? = v.resolve? := by
  funext handle
  rw [Workspace.resolve?, Workspace.resolve?, h.handles]

theorem member? (h : Alike w v) : w.member? = v.member? := by
  funext r
  have hr := h.cells r
  rw [Workspace.member?, Workspace.member?]
  generalize w.cell? r = x, v.cell? r = y at hr
  cases hr with
  | none => rfl
  | some hc => cases hc <;> rfl

theorem sight? (h : Alike w v) : w.sight? = v.sight? := by
  funext r
  rw [Workspace.sight?, Workspace.sight?, h.member?, h.held]

theorem sights (h : Alike w v) (g : Group) : w.sights g = v.sights g := by
  rw [Workspace.sights, Workspace.sights, h.sight?]

theorem groupSights (h : Alike w v) {name : String} {rs rs' : List Nat} (hs : Swapped w rs rs') :
    w.sights ⟨name, rs⟩ = v.sights ⟨name, rs'⟩ := by
  rw [hs.sights, h.sights]

theorem snapshot (h : Alike w v) {c c' : Cell} (hc : CellAlike w c c') :
    w.snapshot c = v.snapshot c' := by
  cases hc with
  | same =>
    cases c with
    | group g => rw [Workspace.snapshot, Workspace.snapshot, h.sights]
    | _ => rfl
  | group name hs => rw [Workspace.snapshot, Workspace.snapshot, h.groupSights hs]

theorem renderCell (h : Alike w v) {c c' : Cell} (hc : CellAlike w c c') (d : Dialect)
    (scope : Scope) : w.renderCell d scope c = v.renderCell d scope c' := by
  cases hc with
  | same =>
    cases c with
    | group g => rw [Workspace.renderCell, Workspace.renderCell, h.sights]
    | _ => rfl
  | group name hs => rw [Workspace.renderCell, Workspace.renderCell, h.groupSights hs]

theorem validateCell (h : Alike w v) {c c' : Cell} (hc : CellAlike w c c') :
    w.validateCell c = v.validateCell c' := by
  cases hc with
  | same =>
    cases c with
    | group g => rw [Workspace.validateCell, Workspace.validateCell, h.sights]
    | _ => rfl
  | group name hs => rw [Workspace.validateCell, Workspace.validateCell, h.groupSights hs]

/-! Commands on workspaces that are alike. -/

theorem find? (h : Alike w v) (handle : String) :
    Option.Rel (fun x y => x.1 = y.1 ∧ CellAlike w x.2 y.2) (w.find? handle) (v.find? handle) := by
  cases hr : w.resolve? handle with
  | none =>
    rw [find?_of_unresolved hr, find?_of_unresolved (h.resolve? ▸ hr)]
    exact .none
  | some r =>
    rw [find?_of_resolve hr, find?_of_resolve (h.resolve? ▸ hr)]
    have hc := h.cells r
    generalize w.cell? r = x, v.cell? r = y at hc
    cases hc with
    | none => exact .none
    | some hc => exact .some ⟨rfl, hc⟩

theorem ask (h : Alike w v) (handle : String) {f f' : Cell → Answer}
    (hf : ∀ c c', CellAlike w c c' → f c = f' c') : w.ask handle f = v.ask handle f' := by
  have hr := h.find? handle
  rw [Workspace.ask, Workspace.ask]
  generalize w.find? handle = x, v.find? handle = y at hr
  cases hr with
  | none => rfl
  | some hc => exact hf _ _ hc.2

theorem bind (h : Alike w v) (handle : String) (r : Nat) :
    Alike (w.bind handle r) (v.bind handle r) where
  handles := congrArg (List.cons (handle, r)) h.handles
  held := h.held
  cells s := relOfKinds (h.cells s) fun _ _ hk => hk

theorem hold (h : Alike w v) (r : Nat) : Alike (w.hold r) (v.hold r) where
  handles := h.handles
  held := congrArg (List.cons r) h.held
  cells s := relOfKinds (h.cells s) fun _ _ hk => hk

theorem release (h : Alike w v) (r : Nat) : Alike (w.release r) (v.release r) where
  handles := h.handles
  held := congrArg (List.erase · r) h.held
  cells s := relOfKinds (h.cells s) fun _ _ hk => hk

theorem place (h : Alike w v) (handle : String) {c c' : Cell} (hc : CellAlike w c c') :
    Alike (w.place handle c).1 (v.place handle c').1 ∧
      (w.place handle c).2 = (v.place handle c').2 := by
  have hk := (Evolves.place w handle c).kinds
  have ha : Alike (w.place handle c).1 (v.place handle c').1 := by
    refine ⟨?_, h.held, fun s => relOfKinds ?_ hk⟩
    · change (handle, w.cells.length) :: w.handles = (handle, v.cells.length) :: v.handles
      rw [h.length, h.handles]
    · rw [cell?_place, cell?_place, ← h.length]
      split
      · exact .some hc
      · exact h.cells s
  exact ⟨ha, congrArg Answer.snapshot (ha.snapshot (hc.mono hk))⟩

theorem modify (h : Alike w v) {r : Nat} {f : Cell → Cell}
    (hk : ∀ s k, w.kind? s = some k → (w.modify r f).kind? s = some k)
    (hf : ∀ c c', CellAlike w c c' → CellAlike w (f c) (f c')) :
    Alike (w.modify r f) (v.modify r f) where
  handles := h.handles
  held := h.held
  cells s := by
    refine relOfKinds ?_ hk
    rw [cell?_modify, cell?_modify]
    have hc := h.cells s
    generalize w.cell? s = x, v.cell? s = y at hc
    cases hc with
    | none => exact .none
    | some hc =>
      by_cases hr : r = s
      · simpa [hr] using Option.Rel.some (hf _ _ hc)
      · simpa [hr] using Option.Rel.some hc

theorem change (h : Alike w v) (handle : String) {f : Cell → Option Cell}
    (hk : ∀ c : Cell, (c.changed f).kind? = c.kind?)
    (hf : ∀ c c', CellAlike w c c' → Option.Rel (CellAlike w) (f c) (f c')) :
    Alike (w.change handle f).1 (v.change handle f).1 ∧
      (w.change handle f).2 = (v.change handle f).2 := by
  cases hr : w.resolve? handle with
  | none =>
    rw [change_of_unresolved hr, change_of_unresolved (h.resolve? ▸ hr)]
    exact ⟨h, rfl⟩
  | some r =>
    have hkinds := kinds_modify hk w r
    have ha : Alike (w.modify r (Cell.changed f)) (v.modify r (Cell.changed f)) := by
      refine h.modify hkinds fun c c' hc => ?_
      have hfc := hf c c' hc
      rw [Cell.changed, Cell.changed]
      generalize f c = x, f c' = y at hfc
      cases hfc with
      | none => exact hc
      | some hfc => exact hfc
    rw [← change_fst hr, ← change_fst (h.resolve? ▸ hr : v.resolve? handle = some r)] at ha
    rw [← change_fst hr] at hkinds
    refine ⟨ha, ?_⟩
    have hfind := h.find? handle
    rw [Workspace.change, Workspace.change] at ha ⊢
    rw [Workspace.change] at hkinds
    generalize w.find? handle = x, v.find? handle = y at ha hfind hkinds ⊢
    cases hfind with
    | none => rfl
    | @some p q hpq =>
      obtain ⟨hp, hc⟩ := hpq
      have hfc := hf _ _ hc
      dsimp only at ha hkinds ⊢
      generalize f p.2 = x, f q.2 = y at ha hfc hkinds ⊢
      cases hfc with
      | none => rfl
      | some hfc => exact congrArg Answer.snapshot (ha.snapshot (hfc.mono hkinds))

end Alike

theorem cellAlike_refl (w : Workspace) (x : Option Cell) : Option.Rel (CellAlike w) x x := by
  cases x with
  | none => exact .none
  | some c => exact .some (.same c)

theorem CellAlike.edit {w : Workspace} (e : Edit) {c c' : Cell} (h : CellAlike w c c') :
    Option.Rel (CellAlike w) (e.apply c) (e.apply c') := by
  cases h with
  | same => exact cellAlike_refl w _
  | group name h =>
    cases e with
    | setName n => exact .some (.group n h)
    | _ => exact .none

theorem CellAlike.add {w : Workspace} (r : Nat) {c c' : Cell} (h : CellAlike w c c') :
    Option.Rel (CellAlike w) (addMember r c) (addMember r c') := by
  cases h with
  | same => exact cellAlike_refl w _
  | group name h => exact .some (.group name (h.concat r))

theorem CellAlike.equalCells {w : Workspace} {c c' b b' : Cell} (hc : CellAlike w c c')
    (hb : CellAlike w b b') : equalCells c b = equalCells c' b' := by
  cases hc with
  | same =>
    cases hb with
    | same => rfl
    | group => rcases c with (_ | _ | _ | _) | _ | _ <;> rfl
  | group => rfl

theorem Alike.askFunction {w v : Workspace} (h : Alike w v) (target dialect : String)
    (text : Function → Dialect → Except Error String) :
    w.askFunction target dialect text = v.askFunction target dialect text := by
  refine h.ask target fun c c' hc => ?_
  cases hc <;> rfl

mutual

/-- Workspaces that are alike answer a command alike, and stay alike. -/
theorem Alike.run {w v : Workspace} (h : Alike w v) : (c : Command) →
    Alike (c.run w).1 (c.run v).1 ∧ (c.run w).2 = (c.run v).2
  | .make handle c => h.place handle (.same c)
  | .makeGroup handle name members => by
    rw [Command.run, Command.run, ← h.resolve?]
    cases members.mapM w.resolve? with
    | none => exact ⟨h, rfl⟩
    | some refs => exact h.place handle (.same _)
  | .alias handle target => by
    have hf := h.find? target
    rw [Command.run, Command.run]
    generalize w.find? target = x, v.find? target = y at hf
    cases hf with
    | none => exact ⟨h, rfl⟩
    | @some p q hpq =>
      obtain ⟨r, c⟩ := p
      obtain ⟨r', c'⟩ := q
      obtain ⟨rfl, hc⟩ := hpq
      have hb := h.bind handle r
      exact ⟨hb, congrArg Answer.snapshot (hb.snapshot (hc.mono fun _ _ hk => hk))⟩
  | .clone handle target => by
    have hf := h.find? target
    rw [Command.run, Command.run]
    generalize w.find? target = x, v.find? target = y at hf
    cases hf with
    | none => exact ⟨h, rfl⟩
    | some hpq => exact h.place handle hpq.2
  | .get target =>
    ⟨h, h.ask target fun c c' hc => congrArg Answer.snapshot (h.snapshot hc)⟩
  | .equal a b =>
    ⟨h, h.ask a fun c c' hc => h.ask b fun d d' hd => hc.equalCells hd⟩
  | .same a b => by
    rw [Command.run, Command.run, h.resolve?]
    exact ⟨h, rfl⟩
  | .render target dialect scope =>
    ⟨h, h.ask target fun c c' hc => by simp only [h.renderCell hc]⟩
  | .paramList target dialect => ⟨h, h.askFunction target dialect _⟩
  | .paramAnnotations target dialect => ⟨h, h.askFunction target dialect _⟩
  | .returnAnnotations target dialect => ⟨h, h.askFunction target dialect _⟩
  | .validate target => ⟨h, h.ask target fun c c' hc => by rw [h.validateCell hc]⟩
  | .edit target e => h.change target (Cell.kind?_changed_edit e) fun _ _ hc => hc.edit e
  | .add target member => by
    rw [Command.run, Command.run, h.resolve?]
    cases v.resolve? member with
    | none => exact ⟨h, rfl⟩
    | some r => exact h.change target (Cell.kind?_changed_add r) fun _ _ hc => hc.add r
  | .borrowed target steps => by
    rw [Command.run, Command.run, h.resolve?]
    cases v.resolve? target with
    | none => exact ⟨h, rfl⟩
    | some r =>
      obtain ⟨hs, has⟩ := Alike.runAll (h.hold r) steps
      exact ⟨hs.release r, congrArg Answer.answers has⟩

theorem Alike.runAll {w v : Workspace} (h : Alike w v) : (cs : List Command) →
    Alike (runAll w cs).1 (runAll v cs).1 ∧ (runAll w cs).2 = (runAll v cs).2
  | [] => ⟨h, rfl⟩
  | c :: cs => by
    obtain ⟨hc, ha⟩ := Alike.run h c
    obtain ⟨hcs, has⟩ := Alike.runAll hc cs
    exact ⟨hcs, List.cons_eq_cons.mpr ⟨ha, has⟩⟩

end

/-! Steps that change places. -/

theorem eq_of_cell? {w v : Workspace} (hh : w.handles = v.handles) (hd : w.held = v.held)
    (hc : ∀ r, w.cell? r = v.cell? r) : w = v := by
  obtain ⟨cells, handles, held⟩ := w
  obtain ⟨cells', handles', held'⟩ := v
  obtain rfl : cells = cells' := List.ext_getElem? hc
  obtain rfl : handles = handles' := hh
  obtain rfl : held = held' := hd
  rfl

theorem edit_run (w : Workspace) (target : String) (e : Edit) :
    ((Command.edit target e).run w).1 =
      (w.resolve? target).elim w fun r => w.modify r (Cell.changed e.apply) := by
  rw [Command.run]
  cases h : w.resolve? target with
  | none => rw [change_of_unresolved h]; rfl
  | some r => exact change_fst h e.apply

theorem add_run (w : Workspace) (target member : String) :
    ((Command.add target member).run w).1 =
      (w.resolve? member).elim w fun r =>
        (w.resolve? target).elim w fun s => w.modify s (Cell.changed (addMember r)) := by
  rw [Command.run]
  cases w.resolve? member with
  | none => rfl
  | some r =>
    cases h : w.resolve? target with
    | none => exact congrArg Prod.fst (change_of_unresolved h (addMember r))
    | some s => exact change_fst h (addMember r)

theorem changed_comm (e : Edit) (r : Nat) (c : Cell) :
    (c.changed e.apply).changed (addMember r) = (c.changed (addMember r)).changed e.apply := by
  rcases c with (_ | _ | _ | _) | a | g <;> cases e <;> rfl

theorem modify_comm {f g : Cell → Cell} (h : ∀ c, g (f c) = f (g c)) (w : Workspace) (r s : Nat) :
    (w.modify r f).modify s g = (w.modify s g).modify r f := by
  refine eq_of_cell? rfl rfl fun i => ?_
  simp only [cell?_modify, Option.map_map]
  congr 1
  funext c
  by_cases hr : r = i <;> by_cases hs : s = i <;> simp [hr, hs, h]

theorem resolve?_modify (w : Workspace) (r : Nat) (f : Cell → Cell) (handle : String) :
    (w.modify r f).resolve? handle = w.resolve? handle := rfl

/-- A change and an addition lead to the same workspace in either order. -/
theorem edit_add_comm (w : Workspace) (t : String) (e : Edit) (s m : String) :
    (runAll w [.edit t e, .add s m]).1 = (runAll w [.add s m, .edit t e]).1 := by
  change ((Command.add s m).run ((Command.edit t e).run w).1).1 =
    ((Command.edit t e).run ((Command.add s m).run w).1).1
  simp only [edit_run, add_run]
  cases ht : w.resolve? t with
  | none =>
    cases hm : w.resolve? m <;> cases hs : w.resolve? s <;> simp [ht, hm, hs, resolve?_modify]
  | some r =>
    cases hm : w.resolve? m with
    | none => simp [ht, hm, resolve?_modify]
    | some k =>
      cases hs : w.resolve? s with
      | none => simp [ht, hm, hs, resolve?_modify]
      | some q =>
        simp only [Option.elim_some, resolve?_modify, ht, hm, hs]
        exact modify_comm (changed_comm e k) w r q

/-- A change and the making of a namespace under another handle, too. -/
theorem edit_makeGroup_comm {w : Workspace} {t handle : String} (ht : (w.find? t).isSome)
    (hne : t ≠ handle) (e : Edit) (name : String) (members : List String) :
    (runAll w [.edit t e, .makeGroup handle name members]).1 =
      (runAll w [.makeGroup handle name members, .edit t e]).1 := by
  change ((Command.makeGroup handle name members).run ((Command.edit t e).run w).1).1 =
    ((Command.edit t e).run ((Command.makeGroup handle name members).run w).1).1
  obtain ⟨⟨r, c⟩, hf⟩ := Option.isSome_iff_exists.mp ht
  obtain ⟨hr, hc⟩ := find?_eq_some_iff.mp hf
  have hlt : r < w.cells.length := (List.getElem?_eq_some_iff.mp hc).1
  simp only [edit_run, hr, Option.elim_some]
  rw [Command.run, Command.run]
  have hm : (w.modify r (Cell.changed e.apply)).resolve? = w.resolve? := rfl
  rw [hm]
  cases members.mapM w.resolve? with
  | none => simp [hr]
  | some refs =>
    have hr' : (w.place handle (.group ⟨name, refs⟩)).1.resolve? t = some r := by
      change ((handle, w.cells.length) :: w.handles).lookup t = some r
      rw [List.lookup_cons, beq_false_of_ne hne]
      exact hr
    have hlen : (w.modify r (Cell.changed e.apply)).cells.length = w.cells.length :=
      List.length_modify _ _ _
    simp only [hr', Option.elim_some]
    refine eq_of_cell? (congrArg (fun n => (handle, n) :: w.handles) hlen) rfl fun i => ?_
    rw [cell?_place, hlen, cell?_modify, cell?_modify, cell?_place]
    by_cases hi : w.cells.length = i
    · have hri : r ≠ i := Nat.ne_of_lt (hi ▸ hlt)
      simp [hi, hri]
    · simp [hi]

theorem cellAlike_added {w : Workspace} {a b : Nat} {k k' : Kind} (ha : w.kind? a = some k)
    (hb : w.kind? b = some k') (hne : k ≠ k') (c : Cell) :
    CellAlike w ((c.changed (addMember a)).changed (addMember b))
      ((c.changed (addMember b)).changed (addMember a)) := by
  cases c with
  | group g =>
    have hs : Swapped w (g.members ++ [a] ++ [b]) (g.members ++ [b] ++ [a]) := by
      rw [List.append_assoc, List.append_assoc]
      exact .swap g.members [] ha hb hne
    exact .group g.name hs
  | _ => exact .same _

theorem modify_add_alike {w : Workspace} {a b : Nat} {k k' : Kind} (ha : w.kind? a = some k)
    (hb : w.kind? b = some k') (hne : k ≠ k') (s s' : Nat) :
    Alike ((w.modify s (Cell.changed (addMember a))).modify s' (Cell.changed (addMember b)))
      ((w.modify s' (Cell.changed (addMember b))).modify s (Cell.changed (addMember a))) where
  handles := rfl
  held := rfl
  cells i := by
    refine relOfKinds (w := w) ?_ fun r j hj => kinds_modify (Cell.kind?_changed_add b) _ s' r j
      (kinds_modify (Cell.kind?_changed_add a) w s r j hj)
    simp only [cell?_modify]
    cases w.cell? i with
    | none => exact .none
    | some c =>
      refine .some ?_
      by_cases hs : s = i
      · by_cases hs' : s' = i
        · simpa only [hs, hs', if_true] using cellAlike_added ha hb hne c
        · simpa only [hs, hs', if_true, if_false] using .same _
      · by_cases hs' : s' = i
        · simpa only [hs, hs', if_true, if_false] using .same _
        · simpa only [hs, hs', if_false] using .same _

/-- Two additions of members of different kinds lead to workspaces that are alike. -/
theorem adds_alike {w : Workspace} {s s' m m' : String} {k k' : Kind}
    (hm : (w.resolve? m).bind w.kind? = some k) (hm' : (w.resolve? m').bind w.kind? = some k')
    (hne : k ≠ k') :
    Alike (runAll w [.add s m, .add s' m']).1 (runAll w [.add s' m', .add s m]).1 := by
  obtain ⟨a, ha, hka⟩ := Option.bind_eq_some_iff.mp hm
  obtain ⟨b, hb, hkb⟩ := Option.bind_eq_some_iff.mp hm'
  change Alike ((Command.add s' m').run ((Command.add s m).run w).1).1
    ((Command.add s m).run ((Command.add s' m').run w).1).1
  simp only [add_run, ha, hb, Option.elim_some]
  cases hs : w.resolve? s with
  | none =>
    cases hs' : w.resolve? s' <;> simp [hs, hs', hb, ha, resolve?_modify, Alike.refl]
  | some q =>
    cases hs' : w.resolve? s' with
    | none => simp [hs, hs', hb, ha, resolve?_modify, Alike.refl]
    | some q' =>
      simp only [resolve?_modify, hs, hs', hb, ha, Option.elim_some]
      exact modify_add_alike hka hkb hne q q'

/-- Two runs from one workspace that differ in the order of two neighbouring steps. -/
inductive Exchanged : Workspace → List Command → List Command → Prop
  | edit (w : Workspace) (t : String) (e : Edit) (s m : String) (cs : List Command) :
      Exchanged w (.edit t e :: .add s m :: cs) (.add s m :: .edit t e :: cs)
  | editMake {w : Workspace} {t handle : String} (ht : (w.find? t).isSome) (hne : t ≠ handle)
      (e : Edit) (name : String) (members : List String) (cs : List Command) :
      Exchanged w (.edit t e :: .makeGroup handle name members :: cs)
        (.makeGroup handle name members :: .edit t e :: cs)
  | adds {w : Workspace} {s s' m m' : String} {k k' : Kind}
      (hm : (w.resolve? m).bind w.kind? = some k) (hm' : (w.resolve? m').bind w.kind? = some k')
      (hne : k ≠ k') (cs : List Command) :
      Exchanged w (.add s m :: .add s' m' :: cs) (.add s' m' :: .add s m :: cs)
  | later {w : Workspace} (c : Command) {cs cs' : List Command} (h : Exchanged (c.run w).1 cs cs') :
      Exchanged w (c :: cs) (c :: cs')
  | inside {w : Workspace} {t : String} {r : Nat} (ht : w.resolve? t = some r)
      {steps steps' : List Command} (h : Exchanged (w.hold r) steps steps') (cs : List Command) :
      Exchanged w (.borrowed t steps :: cs) (.borrowed t steps' :: cs)

theorem alike_of_eq {w v : Workspace} (h : w = v) : Alike w v := h ▸ .refl w

theorem Exchanged.alike {w : Workspace} {cs cs' : List Command} (h : Exchanged w cs cs') :
    Alike (runAll w cs).1 (runAll w cs').1 := by
  induction h with
  | edit w t e s m cs =>
    exact (alike_of_eq (edit_add_comm w t e s m) |>.runAll cs).1
  | editMake ht hne e name members cs =>
    have hs := edit_makeGroup_comm ht hne e name members
    exact (alike_of_eq hs |>.runAll cs).1
  | adds hm hm' hne cs => exact ((adds_alike hm hm' hne).runAll cs).1
  | later c h ih => exact ih
  | @inside w t r ht steps steps' h cs ih =>
    have hb : Alike ((Command.borrowed t steps).run w).1 ((Command.borrowed t steps').run w).1 := by
      rw [Command.run, Command.run, ht]
      exact ih.release r
    exact (hb.runAll cs).1

/--
After every run a namespace renders and validates as one that is made by value of the members that
the run has added to it, as they are now. However often two neighbouring steps change places, a change
and an addition or two additions of different kinds, every later answer stays as it is.
-/
theorem shows_current_members :
    (∀ (cs : List Command) (ns : String) (s : Nat) (g : Group),
      (runAll {} cs).1.find? ns = some (s, .group g) →
        (∀ dialect scope, ((Command.render ns dialect scope).run (runAll {} cs).1).2 =
          .ofText (Dialect.read dialect >>= fun d => (valueAfter cs s g.name).render d scope)) ∧
        ((Command.validate ns).run (runAll {} cs).1).2 = .ofUnit (valueAfter cs s g.name).validate) ∧
    ∀ (w : Workspace) (cs cs' : List Command), Relation.EqvGen (Exchanged w) cs cs' → ∀ later,
      (runAll (runAll w cs).1 later).2 = (runAll (runAll w cs').1 later).2 := by
  refine ⟨fun cs ns s g h => ⟨fun dialect scope => render_runAll h dialect scope, validate_runAll h⟩,
    fun w cs cs' h later => ?_⟩
  induction h with
  | rel cs cs' h => exact (h.alike.runAll later).2
  | refl cs => rfl
  | symm cs cs' _ ih => exact ih.symm
  | trans cs cs₁ cs' _ _ ih ih' => exact ih.trans ih'

/-! A variable that is added under two handles, and changed after that. -/

namespace Shapes

def making : List Command :=
  [.make "f" (.member (.func { name := "area" })), .make "v" (.member (.var { name := "X" })),
    .make "n" (.group { name := "shapes" }), .alias "h" "v"]

def steps : List Command :=
  making ++ [.add "n" "f", .add "n" "v", .add "n" "h", .edit "h" (.setName "Y")]

/-- The variable comes first. -/
def kindsExchanged : List Command :=
  making ++ [.add "n" "v", .add "n" "f", .add "n" "h", .edit "h" (.setName "Y")]

/-- The variable is changed before it is added for the second time. -/
def changedBefore : List Command :=
  making ++ [.add "n" "f", .add "n" "v", .edit "h" (.setName "Y"), .add "n" "h"]

theorem exchanged_kinds : Exchanged {} kindsExchanged steps :=
  .later _ (.later _ (.later _ (.later _ (.adds rfl rfl (by decide : Kind.var ≠ Kind.func) _))))

theorem exchanged_change : Exchanged {} changedBefore steps :=
  .later _ (.later _ (.later _ (.later _ (.later _ (.later _ (.edit _ _ _ _ _ _))))))

theorem eqvGen_exchanged : Relation.EqvGen (Exchanged {}) kindsExchanged changedBefore :=
  .trans _ steps _ (.rel _ _ exchanged_kinds) (.symm _ _ (.rel _ _ exchanged_change))

def space : Namespace :=
  { name := "shapes", functions := [{ name := "area" }], vars := [{ name := "Y" }, { name := "Y" }] }

def text : String :=
  "--#region shapes\n---@type any\nY = nil\n\n---@type any\nY = nil\n\n" ++
    "function area() end\n--#endregion"

theorem shows_current_members_shapes :
    (runAll {} steps).1.find? "n" = some (2, .group ⟨"shapes", [0, 1, 1]⟩) ∧
      ((Command.render "n" "lua" .topLevel).run (runAll {} steps).1).2 = .text text ∧
      Relation.EqvGen (Exchanged {}) kindsExchanged changedBefore ∧
      ∀ later, (runAll (runAll {} kindsExchanged).1 later).2 =
        (runAll (runAll {} changedBefore).1 later).2 := by
  have hf : (runAll {} steps).1.find? "n" = some (2, .group ⟨"shapes", [0, 1, 1]⟩) := by
    decide +kernel
  have hv : valueAfter steps 2 "shapes" = space := by decide +kernel
  have hr : (Dialect.read "lua" >>= fun d => space.render d .topLevel) = .ok text := by
    decide +kernel
  obtain ⟨hshow, hexchange⟩ := shows_current_members
  have hs := (hshow steps "n" 2 _ hf).1 "lua" .topLevel
  rw [hv, hr] at hs
  exact ⟨hf, hs, eqvGen_exchanged, hexchange {} _ _ eqvGen_exchanged⟩

end Shapes

end Workspace
end Ambient
