import Ambient.Writer

/-!
Written text as a list of rows. A row is what stands before one line break that the writer has set;
lines of a text are found again between its rows.
-/
namespace Ambient

namespace Text

/-! Cutting a text that is put together from pieces. -/

theorem splitWhere_append_cons {cut : Char → Bool} {c : Char} (h : cut c = true)
    (s t : List Char) : splitWhere cut (s ++ c :: t) = splitWhere cut s ++ splitWhere cut t := by
  induction s with
  | nil => simp [splitWhere, h]
  | cons a s ih =>
    by_cases ha : cut a
    · simp [splitWhere, ha, ih]
    · cases hs : splitWhere cut s with
      | nil => exact absurd hs (splitWhere_ne_nil cut s)
      | cons p ps => simp [splitWhere, ha, ih, hs]

theorem splitWhere_of_forall {cut : Char → Bool} {s : List Char} (h : ∀ c ∈ s, cut c = false) :
    splitWhere cut s = [s] := by
  induction s with
  | nil => rfl
  | cons a s ih =>
    rw [List.forall_mem_cons] at h
    simp [splitWhere, h.1, ih h.2]

theorem not_cut_of_mem_splitWhere {cut : Char → Bool} {s p : List Char}
    (h : p ∈ splitWhere cut s) : ∀ c ∈ p, cut c = false := by
  induction s generalizing p with
  | nil =>
    obtain rfl : p = [] := by simpa [splitWhere] using h
    simp
  | cons a s ih =>
    by_cases ha : cut a
    · simp only [splitWhere, ha, ↓reduceIte, List.mem_cons] at h
      rcases h with rfl | h
      · simp
      · exact ih h
    · cases hs : splitWhere cut s with
      | nil => exact absurd hs (splitWhere_ne_nil cut s)
      | cons q qs =>
        simp only [splitWhere, ha, hs, Bool.false_eq_true, ↓reduceIte, List.mem_cons] at h
        rcases h with rfl | h
        · rw [List.forall_mem_cons]
          exact ⟨by simpa using ha, ih (hs ▸ List.mem_cons_self)⟩
        · exact ih (hs ▸ List.mem_cons_of_mem q h)

/-- The first piece begins the text, and the others stand further inside. -/
theorem splitWhere_eq_cons (cut : Char → Bool) (s : List Char) :
    ∃ p ps, splitWhere cut s = p :: ps ∧ p <+: s ∧ ∀ q ∈ ps, q <:+: s := by
  induction s with
  | nil => exact ⟨[], [], rfl, List.nil_prefix, by simp⟩
  | cons a s ih =>
    obtain ⟨p, ps, hs, hp, hps⟩ := ih
    have hq : ∀ q ∈ ps, q <:+: a :: s := fun q hq => List.infix_cons (hps q hq)
    by_cases ha : cut a
    · refine ⟨[], p :: ps, by simp [splitWhere, ha, hs], List.nil_prefix, ?_⟩
      rw [List.forall_mem_cons]
      exact ⟨List.infix_cons hp.isInfix, hq⟩
    · exact ⟨a :: p, ps, by simp [splitWhere, ha, hs], List.cons_prefix_cons.mpr ⟨rfl, hp⟩, hq⟩

theorem infix_of_mem_splitWhere {cut : Char → Bool} {s p : List Char}
    (h : p ∈ splitWhere cut s) : p <:+: s := by
  obtain ⟨q, qs, hs, hq, hqs⟩ := splitWhere_eq_cons cut s
  rw [hs, List.mem_cons] at h
  rcases h with rfl | h
  · exact hq.isInfix
  · exact hqs p h

def terminated (rows : List (List Char)) : List Char := rows.flatMap (· ++ ['\n'])

@[simp] theorem terminated_nil : terminated [] = [] := rfl

@[simp] theorem terminated_cons (r : List Char) (rs : List (List Char)) :
    terminated (r :: rs) = r ++ '\n' :: terminated rs := by
  simp [terminated]

@[simp] theorem terminated_append (rs qs : List (List Char)) :
    terminated (rs ++ qs) = terminated rs ++ terminated qs := List.flatMap_append

theorem getLast?_terminated {rs : List (List Char)} (h : rs ≠ []) :
    (terminated rs).getLast? = some '\n' := by
  rcases rs.eq_nil_or_concat with rfl | ⟨qs, r, rfl⟩
  · exact absurd rfl h
  · have hr : terminated (qs ++ [r]) = (terminated qs ++ r) ++ ['\n'] := by simp
    rw [List.concat_eq_append, hr, List.getLast?_concat]

theorem splitWhere_terminated {cut : Char → Bool} (h : cut '\n' = true) (rs : List (List Char))
    (last : List Char) :
    splitWhere cut (terminated rs ++ last) = rs.flatMap (splitWhere cut) ++ splitWhere cut last := by
  induction rs with
  | nil => rfl
  | cons r rs ih =>
    rw [terminated_cons, List.append_assoc, List.cons_append, splitWhere_append_cons h, ih,
      List.flatMap_cons, List.append_assoc]

theorem terminated_append_eq (rs : List (List Char)) (last : List Char) :
    terminated rs ++ last = ['\n'].intercalate (rs ++ [last]) := by
  induction rs with
  | nil => simp
  | cons r rs ih =>
    rw [terminated_cons, List.append_assoc, List.cons_append, ih]
    cases rs <;> simp [List.intercalate_cons_cons]

/-- The pieces of a text between its line feeds. -/
def pieces (s : List Char) : List (List Char) := splitWhere (· == '\n') s

theorem linesOfPieces_append (ps qs : List (List Char)) (h : qs ≠ []) :
    linesOfPieces (ps ++ qs) = ps.map chomp ++ linesOfPieces qs := by
  induction ps with
  | nil => rfl
  | cons p ps ih =>
    cases hr : ps ++ qs with
    | nil => exact absurd (List.append_eq_nil_iff.mp hr).2 h
    | cons r rs =>
      rw [List.cons_append, hr, linesOfPieces, ← hr, ih, List.map_cons, List.cons_append]
      exact List.cons_ne_nil r rs

theorem newline_not_mem_pieces {s p : List Char} (h : p ∈ pieces s) : '\n' ∉ p := by
  intro hm
  simpa using not_cut_of_mem_splitWhere h '\n' hm

theorem pieces_of_not_mem {s : List Char} (h : '\n' ∉ s) : pieces s = [s] := by
  apply splitWhere_of_forall
  intro c hc
  simpa using fun he : c = '\n' => h (he ▸ hc)

theorem chomp_isPrefix (l : List Char) : chomp l <+: l := by
  unfold chomp
  split
  · exact List.dropLast_prefix l
  · exact List.prefix_rfl

theorem exists_piece_of_mem_linesOfPieces {ps : List (List Char)} {l : List Char}
    (h : l ∈ linesOfPieces ps) : ∃ p ∈ ps, l <+: p := by
  fun_induction linesOfPieces ps with
  | case1 => simp at h
  | case2 last he => simp at h
  | case3 last he =>
    obtain rfl : l = last := by simpa using h
    exact ⟨l, List.mem_cons_self, List.prefix_rfl⟩
  | case4 p rest hr ih =>
    rcases List.mem_cons.mp h with rfl | h
    · exact ⟨p, List.mem_cons_self, chomp_isPrefix p⟩
    · obtain ⟨q, hq, hl⟩ := ih h
      exact ⟨q, List.mem_cons_of_mem p hq, hl⟩

/-- A line is what a piece begins with. -/
theorem exists_piece_of_mem_lineList {s l : List Char} (h : l ∈ lineList s) :
    ∃ p ∈ pieces s, l <+: p := exists_piece_of_mem_linesOfPieces h

theorem newline_not_mem_lineList {s l : List Char} (h : l ∈ lineList s) : '\n' ∉ l := by
  obtain ⟨p, hp, hl⟩ := exists_piece_of_mem_lineList h
  exact fun hm => newline_not_mem_pieces hp (hl.subset hm)

theorem infix_of_mem_lineList {s l : List Char} (h : l ∈ lineList s) : l <:+: s := by
  obtain ⟨p, hp, hl⟩ := exists_piece_of_mem_lineList h
  exact hl.isInfix.trans (infix_of_mem_splitWhere hp)

/-- Lines are found again between the rows of a text. -/
theorem lineList_terminated (rs : List (List Char)) (last : List Char) :
    lineList (terminated rs ++ last) = (rs.flatMap pieces).map chomp ++ lineList last := by
  unfold lineList
  rw [splitWhere_terminated (by decide), linesOfPieces_append _ _ (splitWhere_ne_nil _ _)]
  rfl

end Text

namespace Writer
open Text

def blanks (n : Nat) : List Char := List.replicate n ' '

/-- A line behind a margin; an empty one stays empty. -/
def reindent (n : Nat) (l : List Char) : List Char := if l = [] then [] else blanks n ++ l

def docRows (n : Nat) (d : Dialect) (text : String) : List (List Char) :=
  (Doc.comment d text).map (blanks n ++ ·.toList)

/-- The rows that a step writes behind a margin of so many spaces. -/
def Step.rows (n : Nat) : Step → List (List Char)
  | .line s => [blanks n ++ s.toList]
  | .lines s => (lineList s.toList).map (reindent n)
  | .blank => [[]]
  | .indent | .dedent => []
  | .doc d s => docRows n d s
  | .docIf d s => if s.isEmpty then [] else docRows n d s

/-- The rows of some steps from a level on. -/
def rowsFrom (width level : Nat) : List Step → List (List Char)
  | [] => []
  | s :: ss => s.rows (level * width) ++ rowsFrom width (s.leveled level) ss

theorem forall_mem_rowsFrom {P : List Char → Prop} {ss : List Step}
    (h : ∀ s ∈ ss, ∀ n, ∀ r ∈ s.rows n, P r) (width level : Nat) :
    ∀ r ∈ rowsFrom width level ss, P r := by
  induction ss generalizing level with
  | nil => exact List.forall_mem_nil _
  | cons s ss ih =>
    rw [List.forall_mem_cons] at h
    rw [rowsFrom, List.forall_mem_append]
    exact ⟨h.1 _, ih h.2 _⟩

theorem toList_spaces (n : Nat) : (spaces n).toList = blanks n := String.toList_ofList

theorem toList_writtenLine (n : Nat) (s : String) :
    (writtenLine (spaces n) s).toList = blanks n ++ s.toList ++ ['\n'] := by
  simp [writtenLine, toList_spaces]

theorem toList_writtenLines (n : Nat) (ls : List String) :
    (writtenLines (spaces n) ls).toList = terminated (ls.map (blanks n ++ ·.toList)) := by
  simp only [writtenLines, String.toList_join, List.flatMap_map, toList_writtenLine, terminated]

theorem toList_reindented (n : Nat) (l : List Char) :
    (reindented (spaces n) (String.ofList l)).toList = reindent n l ++ ['\n'] := by
  unfold reindented reindent
  by_cases h : l = []
  · simp [h]
  · have he : ¬ (String.ofList l).isEmpty := by simpa [String.isEmpty_iff] using h
    rw [if_neg he, if_neg h, toList_writtenLine, String.toList_ofList]

theorem toList_written (n : Nat) (s : Step) :
    (s.written (spaces n)).toList = terminated (s.rows n) := by
  cases s with
  | line s => simp [Step.written, Step.rows, toList_writtenLine]
  | lines s =>
    simp only [Step.written, Step.rows, lines, String.toList_join, List.map_map, List.flatMap_map,
      Function.comp_apply, toList_reindented, terminated]
  | blank | indent | dedent => simp [Step.written, Step.rows]
  | doc d s => exact toList_writtenLines n _
  | docIf d s =>
    by_cases h : s.isEmpty = true
    · simp [Step.written, Step.rows, h]
    · simp only [Step.written, Step.rows, h, Bool.false_eq_true, ↓reduceIte]
      exact toList_writtenLines n _

/-- Running steps appends their rows. -/
theorem toList_run_text (w : Writer) (ss : List Step) :
    (w.run ss).text.toList = w.text.toList ++ terminated (rowsFrom w.width w.level ss) := by
  induction ss generalizing w with
  | nil => simp [run, rowsFrom]
  | cons s ss ih =>
    have hs : (w.step s).text.toList =
        w.text.toList ++ terminated (s.rows (w.level * w.width)) := by
      rw [step, String.toList_append, margin, toList_written]
    have ht := ih (w.step s)
    rw [hs, List.append_assoc, ← terminated_append] at ht
    exact ht

theorem toList_dropFinalBreak_terminated (rs : List (List Char)) (last : List Char) (s : String)
    (h : s.toList = terminated (rs ++ [last])) :
    (dropFinalBreak s).toList = terminated rs ++ last := by
  have hs : s.toList = (terminated rs ++ last) ++ ['\n'] := by simp [h]
  unfold dropFinalBreak
  rw [if_pos (by rw [hs]; exact List.getLast?_concat), String.toList_ofList, hs,
    List.dropLast_concat]

/-- The text of steps has their rows, the last of them without its break. -/
theorem toList_render {d : Dialect} {ss : List Step} {rs : List (List Char)} {last : List Char}
    (h : rowsFrom d.indent 0 ss = rs ++ [last]) :
    (render d ss).toList = terminated rs ++ last := by
  apply toList_dropFinalBreak_terminated
  rw [toList_run_text, ← h]
  rfl

/-- A text is its lines with breaks between them. -/
theorem render_eq_intercalate {d : Dialect} {ss : List Step} {ls : List String}
    (h : rowsFrom d.indent 0 ss = ls.map String.toList) (hne : ls ≠ []) :
    render d ss = "\n".intercalate ls := by
  obtain ⟨front, last, rfl⟩ := (ls.eq_nil_or_concat).resolve_left hne
  rw [List.concat_eq_append, List.map_append, List.map_singleton] at h
  rw [List.concat_eq_append, ← String.toList_inj, toList_render h, terminated_append_eq,
    String.toList_intercalate, List.map_append, List.map_singleton]
  rfl

/-! Rows of steps that are put together. -/

def levelAfter (level : Nat) (ss : List Step) : Nat := ss.foldl (fun n s => s.leveled n) level

theorem rowsFrom_append (width level : Nat) (ss ts : List Step) :
    rowsFrom width level (ss ++ ts) =
      rowsFrom width level ss ++ rowsFrom width (levelAfter level ss) ts := by
  induction ss generalizing level with
  | nil => rfl
  | cons s ss ih =>
    rw [List.cons_append, rowsFrom, ih, rowsFrom, List.append_assoc]
    rfl

theorem rowsFrom_concat_line (width level : Nat) (ss : List Step) (s : String) :
    rowsFrom width level (ss ++ [.line s]) =
      rowsFrom width level ss ++ [blanks (levelAfter level ss * width) ++ s.toList] := by
  rw [rowsFrom_append]
  rfl

theorem rowsFrom_lines (width : Nat) (ls : List String) :
    rowsFrom width 0 (ls.map .line) = ls.map String.toList := by
  induction ls with
  | nil => rfl
  | cons l ls ih =>
    simp only [List.map_cons, rowsFrom, Step.leveled, ih]
    simp [Step.rows, blanks]

end Writer
end Ambient
