import Ambient.Proofs.Description.Carried
import Ambient.Proofs.Layout.Member

/-!
Indentation composes. Steps that are run from some level on write what comes of running them from the
outermost level and of laying out that text, line by line, from the other level on.
-/
namespace Ambient
open Doc Text Writer

namespace Writer

/-! Steps whose text can be moved in. -/

/-- A step whose rows are found again as lines where they are moved; only a blank one writes an empty line. -/
structure Step.Movable (s : Step) : Prop where
  lined : s.Lined
  ne_empty : s ≠ .line ""

instance (s : Step) : Decidable s.Lined :=
  match s with
  | .line s => inferInstanceAs (Decidable (IsLine s.toList))
  | .doc _ s | .docIf _ s =>
    inferInstanceAs (Decidable (∀ l ∈ Text.lines s, l.toList.getLast? ≠ some '\r'))
  | .blank | .indent | .dedent => inferInstanceAs (Decidable True)
  | .lines _ => inferInstanceAs (Decidable False)

instance (s : Step) : Decidable s.Movable :=
  decidable_of_iff (s.Lined ∧ s ≠ .line "") ⟨fun h => ⟨h.1, h.2⟩, fun h => ⟨h.lined, h.ne_empty⟩⟩

/-- No step goes back from the level at which the first one is run. -/
def StaysInside (level : Nat) : List Step → Prop
  | [] => True
  | s :: ss => (s = .dedent → 0 < level) ∧ StaysInside (s.leveled level) ss

instance decidableStaysInside (level : Nat) : (ss : List Step) → Decidable (StaysInside level ss)
  | [] => inferInstanceAs (Decidable True)
  | s :: ss =>
    have := decidableStaysInside (s.leveled level) ss
    inferInstanceAs (Decidable ((s = .dedent → 0 < level) ∧ StaysInside (s.leveled level) ss))

theorem Step.leveled_add {s : Step} {level : Nat} (h : s = .dedent → 0 < level) (k : Nat) :
    s.leveled (k + level) = k + s.leveled level := by
  cases s with
  | dedent =>
    have hl := h rfl
    change k + level - 1 = k + (level - 1)
    omega
  | indent => exact Nat.add_assoc k level 1
  | line | lines | blank | doc | docIf => rfl

theorem reindent_blanks_append {s : List Char} (h : s ≠ []) (n k : Nat) :
    reindent n (blanks k ++ s) = blanks (n + k) ++ s := by
  rw [reindent, if_neg (by simp [h]), blanks_append_blanks]

theorem ne_nil_of_mem_comment {d : Dialect} {text l : String} (h : l ∈ comment d text) :
    l.toList ≠ [] := by
  obtain ⟨c, -, hc⟩ := head?_of_mem_comment h
  intro hnil
  rw [hnil] at hc
  cases hc

theorem docRows_add (n k : Nat) (d : Dialect) (text : String) :
    docRows (n + k) d text = (docRows k d text).map (reindent n) := by
  rw [docRows, docRows, List.map_map]
  apply List.map_congr_left
  intro l hl
  exact (reindent_blanks_append (ne_nil_of_mem_comment hl) n k).symm

/-- Behind a wider margin a step writes the same rows, moved in. -/
theorem Step.Movable.rows_add {s : Step} (h : s.Movable) (n k : Nat) :
    s.rows (n + k) = (s.rows k).map (reindent n) := by
  cases s with
  | line s =>
    have hne : s.toList ≠ [] := by
      intro hnil
      exact h.ne_empty (congrArg Step.line (String.toList_eq_nil_iff.mp hnil))
    rw [Step.rows, Step.rows, List.map_singleton, reindent_blanks_append hne]
  | lines s => exact h.lined.elim
  | blank | indent | dedent => rfl
  | doc d text => exact docRows_add n k d text
  | docIf d text =>
    rw [Step.rows, Step.rows]
    split
    · rfl
    · exact docRows_add n k d text

/-- Steps that stay inside write the same rows from a further level on, moved in by that level. -/
theorem rowsFrom_add {ss : List Step} (hs : ∀ s ∈ ss, s.Movable) {level : Nat}
    (hl : StaysInside level ss) (width k : Nat) :
    rowsFrom width (k + level) ss = (rowsFrom width level ss).map (reindent (k * width)) := by
  induction ss generalizing level with
  | nil => rfl
  | cons s ss ih =>
    rw [List.forall_mem_cons] at hs
    obtain ⟨hdedent, hinside⟩ := hl
    rw [rowsFrom, rowsFrom, List.map_append, Nat.add_mul, hs.1.rows_add, Step.leveled_add hdedent,
      ih hs.2 hinside]

/-! The last row. -/

/-- Whether a step writes anything. -/
def Step.writes (s : Step) : Bool := !(s.written "").isEmpty

/-- The last of some steps that writes anything. -/
def lastWritten (ss : List Step) : Option Step := (ss.filter Step.writes).getLast?

theorem lastWritten_cons (s : Step) (ss : List Step) :
    lastWritten (s :: ss) = (lastWritten ss).or (if s.writes then some s else none) := by
  unfold lastWritten
  rw [List.filter_cons]
  split
  · rw [List.getLast?_cons]
    cases (ss.filter Step.writes).getLast? <;> rfl
  · rw [Option.or_none]

theorem Step.writes_iff (s : Step) : s.writes = true ↔ s.rows 0 ≠ [] := by
  have hw : (s.written "").toList = terminated (s.rows 0) := toList_written 0 s
  unfold Step.writes
  constructor
  · intro h hr
    rw [hr] at hw
    rw [String.toList_eq_nil_iff.mp hw] at h
    cases h
  · intro hr
    have hlast := getLast?_terminated hr
    rw [← hw] at hlast
    have hne : s.written "" ≠ "" := by
      intro he
      rw [he] at hlast
      cases hlast
    simpa using hne

theorem comment_ne_nil (d : Dialect) (text : String) : comment d text ≠ [] := by
  have hlines : linesOrEmpty text ≠ [] := by
    unfold linesOrEmpty
    split
    · simp
    · assumption
  unfold comment
  split
  · simpa using hlines
  · simp
  · simp

theorem getLast?_docRows (n : Nat) (d : Dialect) (text : String) :
    ∃ r, (docRows n d text).getLast? = some r ∧ r ≠ [] := by
  have hne : docRows n d text ≠ [] := by
    rw [docRows, Ne, List.map_eq_nil_iff]
    exact comment_ne_nil d text
  refine ⟨_, List.getLast?_eq_some_getLast hne, ?_⟩
  obtain ⟨l, hl, hr⟩ := List.mem_map.mp (List.getLast_mem hne)
  rw [← hr]
  exact List.append_ne_nil_of_right_ne_nil _ (ne_nil_of_mem_comment hl)

/-- A step that writes writes a last row, which is empty only behind a blank step. -/
theorem Step.Movable.getLast?_rows {s : Step} (h : s.Movable) (n : Nat) :
    (s.rows n).getLast?.map List.isEmpty =
      (if s.writes then some s else none).map fun s => decide (s = .blank) := by
  have hdoc : ∀ d text, (docRows n d text).getLast?.map List.isEmpty = some false := by
    intro d text
    obtain ⟨r, hr, hne⟩ := getLast?_docRows n d text
    rw [hr]
    simpa using hne
  have hwrites : ∀ d text, docRows 0 d text ≠ [] := by
    intro d text
    obtain ⟨r, hr, -⟩ := getLast?_docRows 0 d text
    exact List.ne_nil_of_mem (List.mem_of_getLast? hr)
  cases s with
  | line s =>
    have hne : s ≠ "" := fun he => h.ne_empty (congrArg Step.line he)
    simp [Step.rows, Step.writes, Step.written, writtenLine, hne]
  | lines s => exact h.lined.elim
  | blank => rfl
  | indent | dedent => rfl
  | doc d text =>
    have hw : (Step.doc d text).writes = true := (Step.writes_iff _).mpr (hwrites d text)
    rw [Step.rows, hdoc, if_pos hw]
    rfl
  | docIf d text =>
    by_cases ht : text.isEmpty = true
    · simp [Step.rows, Step.writes, Step.written, ht]
    · have hrows : (Step.docIf d text).rows 0 = docRows 0 d text := if_neg ht
      have hw : (Step.docIf d text).writes = true :=
        (Step.writes_iff _).mpr (hrows ▸ hwrites d text)
      rw [Step.rows, if_neg ht, hdoc, if_pos hw]
      rfl

theorem getLast?_rowsFrom {ss : List Step} (hs : ∀ s ∈ ss, s.Movable) (width level : Nat) :
    (rowsFrom width level ss).getLast?.map List.isEmpty =
      (lastWritten ss).map fun s => decide (s = .blank) := by
  induction ss generalizing level with
  | nil => rfl
  | cons s ss ih =>
    rw [List.forall_mem_cons] at hs
    rw [rowsFrom, List.getLast?_append, lastWritten_cons, Option.map_or, Option.map_or, ih hs.2,
      hs.1.getLast?_rows]

/-! Texts. -/

/-- Laying out a text appends its lines behind the margin. -/
theorem toList_step_lines (w : Writer) (text : String) :
    (w.step (.lines text)).text.toList =
      w.text.toList ++ terminated ((lineList text.toList).map (reindent (w.level * w.width))) := by
  rw [step, String.toList_append, margin, toList_written]
  rfl

/-- Rows that are lines are laid out as they are. -/
theorem lineList_rows {rs : List (List Char)} (h : ∀ r ∈ rs, IsLine r) :
    lineList (terminated rs) = rs := by
  have hnil : lineList [] = [] := rfl
  have hl := lineList_terminated rs []
  rwa [List.append_nil, flatMap_pieces h, map_chomp h, hnil, List.append_nil] at hl

/-- Without the break behind the last row, that row is a line unless it is empty. -/
theorem lineList_without_break {rs : List (List Char)} {r : List Char}
    (h : ∀ l ∈ rs ++ [r], IsLine l) :
    lineList (terminated rs ++ r) = if r = [] then rs else rs ++ [r] := by
  split
  · next hr =>
    rw [hr, List.append_nil]
    exact lineList_rows fun l hl => h l (List.mem_append_left _ hl)
  · next hr => exact lineList_terminated_of_isLine h hr

/--
Steps append to a writer what it appends when it lays out their own text, run from the outermost level:
all that they write in any case, and that text without its last line break unless a blank line came last.
-/
theorem run_eq_step_lines (w : Writer) {ss : List Step} (hs : ∀ s ∈ ss, s.Movable)
    (hl : StaysInside 0 ss) :
    (w.run ss).text = (w.step (.lines ((empty w.width).run ss).text)).text ∧
      ((w.run ss).text = (w.step (.lines ((empty w.width).run ss).build)).text ↔
        lastWritten ss ≠ some .blank) := by
  have hrun : (w.run ss).text.toList = w.text.toList ++
      terminated ((rowsFrom w.width 0 ss).map (reindent (w.level * w.width))) := by
    rw [toList_run_text, ← rowsFrom_add hs hl, Nat.add_zero]
  have hown : ((empty w.width).run ss).text.toList = terminated (rowsFrom w.width 0 ss) :=
    toList_run_text (empty w.width) ss
  have hlines : ∀ r ∈ rowsFrom w.width 0 ss, IsLine r :=
    isLine_rowsFrom (fun s hm => (hs s hm).lined) w.width 0
  constructor
  · rw [← String.toList_inj, hrun, toList_step_lines, hown, lineList_rows hlines]
  · have hlast := getLast?_rowsFrom hs w.width 0
    rw [← String.toList_inj, hrun, toList_step_lines, List.append_cancel_left_eq]
    rcases List.eq_nil_or_concat' (rowsFrom w.width 0 ss) with hnil | ⟨rs, r, hrows⟩
    · have hnone : lastWritten ss = none := by
        rw [hnil] at hlast
        simpa using hlast.symm
      have hbuild : ((empty w.width).run ss).build = "" := by
        rw [hnil] at hown
        rw [build, String.toList_eq_nil_iff.mp hown]
        rfl
      rw [hnil, hbuild, hnone]
      simp [lineList, splitWhere, linesOfPieces]
    · rw [hrows] at hown hlines hlast
      have hbuild := toList_dropFinalBreak_terminated rs r _ hown
      rw [List.getLast?_concat, Option.map_some] at hlast
      rw [build, hbuild, lineList_without_break hlines, hrows]
      by_cases hr : r = []
      · -- The layout is one line break short of the blank line.
        obtain ⟨s, hs, hblank⟩ := Option.map_eq_some_iff.mp hlast.symm
        obtain rfl : s = .blank := by simpa [hr] using hblank
        rw [if_pos hr, hr, hs]
        simp [reindent]
      · rw [if_neg hr]
        refine iff_of_true rfl fun hs => ?_
        rw [hs] at hlast
        exact hr (by simpa using hlast)

/-! Steps with a description and a blank line, moved in by two levels. -/

namespace Nested

def steps : List Step :=
  [.docIf .typeScript "a\n\nb", .line "x \x7b", .indent, .doc .typeScript "", .line "y", .blank,
    .line "z", .dedent, .line "\x7d", .docIf .typeScript ""]

def there : Writer := ⟨2, 2, "before\n"⟩

theorem run_eq_step_lines_nested :
    (∀ s ∈ steps, s.Movable) ∧ StaysInside 0 steps ∧ lastWritten steps ≠ some .blank ∧
      (there.run steps).text = (there.step (.lines (String.join ["/**\n * a\n *\n * b\n */\n",
        "x \x7b\n  /**  */\n  y\n\n  z\n\x7d"]))).text := by
  have hs : ∀ s ∈ steps, s.Movable := by decide
  have hl : StaysInside 0 steps := by decide
  have hlast : lastWritten steps ≠ some .blank := by decide
  have hbuild : ((empty there.width).run steps).build =
      String.join ["/**\n * a\n *\n * b\n */\n", "x \x7b\n  /**  */\n  y\n\n  z\n\x7d"] := by decide
  refine ⟨hs, hl, hlast, ?_⟩
  rw [← hbuild]
  exact (run_eq_step_lines there hs hl).2.mpr hlast

end Nested

end Writer
end Ambient
