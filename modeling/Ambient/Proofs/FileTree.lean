import Ambient.FileTree
import Ambient.Proofs.Outcomes

/-!
Directory trees as a file is written to them. The directories stay, so a path leads where it led
before, and what was written is read back.
-/
namespace Ambient

/-- A disk as a program relies on it: reading leaves it alone, and what was written is read back. -/
structure Disk.Lawful {σ : Type} (disk : Disk (StateM σ)) : Prop where
  read_keeps : ∀ path s, ((disk.read path).run s).2 = s
  read_write : ∀ {path text s s'}, (disk.write path text).run s = (.ok (), s') →
    ((disk.read path).run s').1 = .ok text

namespace FileTree

variable {t t' : FileTree} {place q : Place} {path : String}

theorem lookup_filter_ne (nodes : List (Place × Content)) (h : q ≠ place) :
    (nodes.filter fun p => p.1 ≠ place).lookup q = nodes.lookup q := by
  induction nodes with
  | nil => rfl
  | cons p nodes ih =>
    obtain ⟨r, c⟩ := p
    by_cases hr : r = place
    · have hq : (q == r) = false := by simpa [hr] using h
      rw [List.filter_cons_of_neg (by simpa using hr), ih, List.lookup_cons, hq]
    · rw [List.filter_cons_of_pos (by simpa using hr), List.lookup_cons, List.lookup_cons, ih]

theorem lookup_put (h : t.isAround place = false) (c : Content) (q : Place) :
    (t.put place c).lookup q = if q = place then some c else t.lookup q := by
  have hput : (t.put place c).lookup q = if t.isAround q then some .directory else
      ((place, c) :: t.nodes.filter fun p => p.1 ≠ place).lookup q := rfl
  rw [hput]
  by_cases hq : q = place
  · subst hq
    simp [h]
  · have hb : (q == place) = false := by simpa using hq
    rw [if_neg hq, lookup, List.lookup_cons, hb, lookup_filter_ne _ hq]

theorem isAround_eq_false (h : t.lookup place ≠ some .directory) : t.isAround place = false := by
  rw [← Bool.not_eq_true]
  exact fun ha => h (if_pos ha)

/-! Directories that stay. -/

/-- The second tree has the working directory of the first, and its other directories. -/
structure Keeps (t t' : FileTree) : Prop where
  home : t'.home = t.home
  directory : ∀ place, t.lookup place = some .directory → t'.lookup place = some .directory

theorem keeps_put (h : t.lookup place ≠ some .directory) (c : Content) :
    Keeps t (t.put place c) where
  home := rfl
  directory q hq := by
    rw [lookup_put (isAround_eq_false h), if_neg (by rintro rfl; exact h hq), hq]

/-- A step needs only the directory that it starts from. -/
theorem Keeps.step (h : Keeps t t') {part : String} (hs : t.step part place = .ok q) :
    t'.step part place = .ok q := by
  cases hl : t.lookup place with
  | none => simp [FileTree.step, hl] at hs
  | some c =>
    cases c with
    | directory => simpa only [FileTree.step, hl, h.directory place hl] using hs
    | _ => simp [FileTree.step, hl] at hs

theorem Keeps.walk (h : Keeps t t') {names : List String} (hw : t.walk place names = .ok q) :
    t'.walk place names = .ok q := by
  induction names generalizing place with
  | nil => exact hw
  | cons part names ih =>
    rw [FileTree.walk, List.foldlM_cons] at hw ⊢
    obtain ⟨next, hs, hw⟩ := bind_eq_ok_iff.mp hw
    exact bind_eq_ok_iff.mpr ⟨next, h.step hs, ih hw⟩

theorem Keeps.resolve (h : Keeps t t') (hr : t.resolve path = .ok q) : t'.resolve path = .ok q := by
  obtain ⟨_, hc, hw⟩ := bind_eq_ok_iff.mp hr
  have hstart : t'.start path = t.start path := by rw [start, start, h.home]
  exact bind_eq_ok_iff.mpr ⟨(), hc, hstart ▸ h.walk hw⟩

/-! Writing. -/

/-- What it takes to write to a file: a way to its place, where no directory is. -/
theorem write_eq_ok_iff {c : Content} :
    t.write path c = .ok t' ↔
      ∃ place, t.resolve path = .ok place ∧ t.lookup place ≠ some .directory ∧
        t' = t.put place c := by
  rw [write, bind_eq_ok_iff]
  refine exists_congr fun place => and_congr_right fun _ => ?_
  split
  next h => simp [h]
  next h => rw [Except.ok.injEq, eq_comm, and_iff_right h]

/-- Whether a file can be written does not depend on what is written. -/
theorem exists_write_iff (c c' : Content) :
    (∃ left, t.write path c = .ok left) ↔ ∃ left, t.write path c' = .ok left := by
  simp only [write_eq_ok_iff, exists_comm (α := FileTree), exists_and_left, exists_eq, and_true]

/-- What was written to a file is read from it: the directories on the way are still there. -/
theorem read_write {s : String} (h : t.write path (.text s) = .ok t') : t'.read path = .ok s := by
  obtain ⟨place, hr, hd, rfl⟩ := write_eq_ok_iff.mp h
  have hresolve := (keeps_put hd (.text s)).resolve hr
  have hlookup : (t.put place (.text s)).lookup place = some (.text s) := by
    rw [lookup_put (isAround_eq_false hd), if_pos rfl]
  rw [read, hresolve]
  simp only [bind, Except.bind, hlookup]

theorem settle_eq_ok_iff {change : Except ReadFailure FileTree} :
    t.settle change = (.ok (), t') ↔ change = .ok t' := by
  cases change <;> simp [settle]

theorem disk_lawful : disk.Lawful where
  read_keeps _ _ := rfl
  read_write h := read_write (settle_eq_ok_iff.mp h)

end FileTree
end Ambient
