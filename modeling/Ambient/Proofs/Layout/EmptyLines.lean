import Ambient.Proofs.Layout.Relaid

/-!
Empty lines. Texts none of whose lines is empty are found again where they are joined by empty lines, and a
writer writes such a text unless it is told to write an empty line.
-/
namespace Ambient
open Doc Text Writer

namespace Text

/-- The pieces of a text between pairs of line feeds. Pairs are looked for from the left. -/
def paragraphs : List Char → List (List Char)
  | [] => [[]]
  | '\n' :: '\n' :: cs => [] :: paragraphs cs
  | c :: cs => (paragraphs cs).modifyHead (c :: ·)

theorem paragraphs_cons {c : Char} {cs : List Char} (h : ¬ (c = '\n' ∧ cs.head? = some '\n')) :
    paragraphs (c :: cs) = (paragraphs cs).modifyHead (c :: ·) := by
  rw [paragraphs]
  rintro t rfl rfl
  exact h ⟨rfl, rfl⟩

theorem paragraphs_line_append {l : List Char} (h : '\n' ∉ l) (s : List Char) :
    paragraphs (l ++ s) = (paragraphs s).modifyHead (l ++ ·) := by
  induction l with
  | nil => exact (congrFun List.modifyHead_id (paragraphs s)).symm
  | cons c l ih =>
    rw [List.mem_cons, not_or] at h
    have hc : ¬ (c = '\n' ∧ (l ++ s).head? = some '\n') := fun hc => h.1 hc.1.symm
    rw [List.cons_append, paragraphs_cons hc, ih h.2, List.modifyHead_modifyHead]
    rfl

/-- A row with a character that ends no line. -/
structure Filled (r : List Char) : Prop where
  newline : '\n' ∉ r
  filled : ∃ c ∈ r, isBreak c = false

namespace Filled

variable {r : List Char}

theorem ne_nil (h : Filled r) : r ≠ [] := by
  obtain ⟨c, hc, -⟩ := h.filled
  exact List.ne_nil_of_mem hc

theorem blanks_append (h : Filled r) (n : Nat) : Filled (blanks n ++ r) := by
  obtain ⟨c, hc, hb⟩ := h.filled
  refine ⟨?_, c, List.mem_append_right _ hc, hb⟩
  rw [List.mem_append, not_or]
  exact ⟨(isLine_blanks n).1, h.newline⟩

theorem reindent (h : Filled r) (n : Nat) : Filled (reindent n r) := by
  rw [Writer.reindent, if_neg h.ne_nil]
  exact h.blanks_append n

/-- Only a carriage return is lost with the end of a line. -/
theorem chomp (h : Filled r) : Filled (chomp r) := by
  unfold Text.chomp
  split
  · next hr =>
    obtain ⟨p, rfl⟩ := List.getLast?_eq_some_iff.mp hr
    obtain ⟨c, hc, hb⟩ := h.filled
    rw [List.dropLast_concat]
    refine ⟨fun hn => h.newline (List.mem_append_left _ hn), c, ?_, hb⟩
    rcases List.mem_append.mp hc with hc | hc
    · exact hc
    · obtain rfl := List.mem_singleton.mp hc
      cases hb
  · exact h

end Filled

/-- A text without empty lines. -/
inductive Compact : List Char → Prop
  | line {r : List Char} (h : Filled r) : Compact r
  | cons {r s : List Char} (h : Filled r) (hs : Compact s) : Compact (r ++ '\n' :: s)

namespace Compact

variable {s : List Char}

theorem of_rows {rows : List (List Char)} (hne : rows ≠ []) (h : ∀ r ∈ rows, Filled r) :
    Compact (['\n'].intercalate rows) := by
  induction rows with
  | nil => exact absurd rfl hne
  | cons r rows ih =>
    rw [List.forall_mem_cons] at h
    cases rows with
    | nil =>
      rw [List.intercalate_singleton]
      exact .line h.1
    | cons q rows =>
      rw [List.intercalate_cons_cons, List.append_assoc]
      exact .cons h.1 (ih (List.cons_ne_nil q rows) h.2)

theorem pieces (h : Compact s) : ∀ l ∈ pieces s, Filled l := by
  induction h with
  | line h =>
    rw [pieces_of_not_mem h.newline]
    exact List.forall_mem_singleton.mpr h
  | cons h _ ih =>
    rw [Text.pieces, splitWhere_append_cons (by decide), List.forall_mem_append]
    refine ⟨?_, ih⟩
    change ∀ l ∈ Text.pieces _, Filled l
    rw [pieces_of_not_mem h.newline]
    exact List.forall_mem_singleton.mpr h

/-- A reader of lines finds no empty one, though it drops the carriage returns at their ends. -/
theorem lineList (h : Compact s) : lineList s ≠ [] ∧ ∀ l ∈ lineList s, Filled l := by
  induction h with
  | @line r h =>
    have hl : Text.lineList r = [r] := by
      have hp : splitWhere (· == '\n') r = [r] := pieces_of_not_mem h.newline
      rw [Text.lineList, hp, linesOfPieces, if_neg (by simpa using h.ne_nil)]
    rw [hl]
    exact ⟨List.cons_ne_nil _ _, List.forall_mem_singleton.mpr h⟩
  | cons h _ ih =>
    rw [lineList_line h.newline]
    exact ⟨List.cons_ne_nil _ _, List.forall_mem_cons.mpr ⟨h.chomp, ih.2⟩⟩

theorem ne_nil (h : Compact s) : s ≠ [] := by
  cases h with
  | line h => exact h.ne_nil
  | cons h _ => exact List.append_ne_nil_of_left_ne_nil h.ne_nil _

theorem head? (h : Compact s) : s.head? ≠ some '\n' := by
  have hr : ∀ r, Filled r → r.head? ≠ some '\n' := fun r hr hc => hr.newline (List.mem_of_head? hc)
  cases h with
  | line h => exact hr _ h
  | cons h _ =>
    rw [List.head?_append_of_ne_nil _ h.ne_nil]
    exact hr _ h

theorem getLast? (h : Compact s) : s.getLast? ≠ some '\n' := by
  induction h with
  | line h => exact fun hc => h.newline (List.mem_of_getLast? hc)
  | cons h hs ih => rwa [List.getLast?_append_of_ne_nil _ (List.cons_ne_nil _ _),
      List.getLast?_cons_of_ne_nil hs.ne_nil]

theorem paragraphs_append (h : Compact s) (t : List Char) :
    paragraphs (s ++ t) = (paragraphs t).modifyHead (s ++ ·) := by
  induction h with
  | line h => exact paragraphs_line_append h.newline t
  | @cons r s h hs ih =>
    have hn : ¬ ('\n' = '\n' ∧ (s ++ t).head? = some '\n') := by
      rw [List.head?_append_of_ne_nil _ hs.ne_nil]
      exact fun hc => hs.head? hc.2
    rw [List.append_assoc, paragraphs_line_append h.newline, List.cons_append, paragraphs_cons hn, ih,
      List.modifyHead_modifyHead, List.modifyHead_modifyHead]
    simp [Function.comp_def]

end Compact

/-- A text of these paragraphs, with one empty line between any two. -/
inductive Spaced : List Char → List (List Char) → Prop
  | one {p : List Char} (h : Compact p) : Spaced p [p]
  | cons {p s : List Char} {ps : List (List Char)} (h : Compact p) (hs : Spaced s ps) :
      Spaced (p ++ '\n' :: '\n' :: s) (p :: ps)

namespace Spaced

variable {s t : List Char} {ps qs : List (List Char)}

theorem compact (h : Spaced s ps) : ∀ p ∈ ps, Compact p := by
  induction h with
  | one h => exact List.forall_mem_singleton.mpr h
  | cons h _ ih => exact List.forall_mem_cons.mpr ⟨h, ih⟩

/-- No paragraph has an empty line, so the first pair of line feeds is the first one that was set. -/
theorem paragraphs_eq (h : Spaced s ps) : paragraphs s = ps := by
  induction h with
  | @one p h =>
    have hp := h.paragraphs_append []
    rw [List.append_nil] at hp
    rw [hp]
    simp [paragraphs]
  | @cons p s ps h _ ih =>
    rw [h.paragraphs_append]
    change ([] :: paragraphs s).modifyHead (p ++ ·) = p :: ps
    rw [ih, List.modifyHead_cons, List.append_nil]

theorem ne_nil (h : Spaced s ps) : s ≠ [] := by
  cases h with
  | one h => exact h.ne_nil
  | cons h _ => exact List.append_ne_nil_of_left_ne_nil h.ne_nil _

theorem getLast? (h : Spaced s ps) : s.getLast? ≠ some '\n' := by
  induction h with
  | one h => exact h.getLast?
  | cons h hs ih =>
    rwa [List.getLast?_append_of_ne_nil _ (List.cons_ne_nil _ _),
      List.getLast?_cons_of_ne_nil (List.cons_ne_nil _ _), List.getLast?_cons_of_ne_nil hs.ne_nil]

theorem append (h : Spaced s ps) (h' : Spaced t qs) : Spaced (s ++ '\n' :: '\n' :: t) (ps ++ qs) := by
  induction h with
  | one h => exact .cons h h'
  | cons h _ ih =>
    rw [List.append_assoc, List.cons_append, List.cons_append]
    exact .cons h ih

/-- A line before a text belongs to the first paragraph. -/
theorem exists_cons_line {r : List Char} (hr : Filled r) (h : Spaced s ps) :
    ∃ qs, Spaced (r ++ '\n' :: s) qs ∧ qs.length = ps.length := by
  cases h with
  | one h => exact ⟨_, .one (.cons hr h), rfl⟩
  | @cons p s ps h hs =>
    refine ⟨(r ++ '\n' :: p) :: ps, ?_, rfl⟩
    rw [← List.cons_append, ← List.append_assoc]
    exact .cons (.cons hr h) hs

end Spaced
end Text

/-! Rows without empty ones among them. -/

theorem filled_of_oneLine {s : String} (h : OneLine s) (hne : s ≠ "") : Filled s.toList := by
  obtain ⟨c, cs, hs⟩ := List.exists_cons_of_ne_nil (mt String.toList_eq_nil_iff.mp hne)
  have hc : c ∈ s.toList := hs ▸ List.mem_cons_self
  exact ⟨(isLine_of_forall h).1, c, hc, h c hc⟩

theorem newline_not_mem_comment {d : Dialect} {text l : String} (h : l ∈ comment d text) :
    '\n' ∉ l.toList := by
  unfold comment at h
  split at h
  next =>
    obtain ⟨k, hk, rfl⟩ := List.mem_map.mp h
    simpa using newline_not_mem_linesOrEmpty hk
  next k hk =>
    obtain rfl := List.mem_singleton.mp h
    have hm : k ∈ linesOrEmpty text := hk ▸ List.mem_cons_self
    simpa using (shield_inside hm).2
  next =>
    simp only [List.mem_append, List.mem_cons, List.mem_map, Function.comp_apply,
      List.not_mem_nil, or_false] at h
    rcases h with (rfl | ⟨k, hk, rfl⟩) | rfl
    · decide
    · exact (starred_inside (shield_inside hk)).2
    · decide

theorem filled_of_mem_comment {d : Dialect} {text l : String} (h : l ∈ comment d text) :
    Filled l.toList := by
  obtain ⟨c, hc, hl⟩ := head?_of_mem_comment h
  refine ⟨newline_not_mem_comment h, c, List.mem_of_head? hl, ?_⟩
  simp only [List.mem_cons, List.not_mem_nil, or_false] at hc
  rcases hc with rfl | rfl | rfl <;> decide

theorem filled_docRows (n : Nat) (d : Dialect) (text : String) : ∀ r ∈ docRows n d text, Filled r := by
  intro r hr
  obtain ⟨l, hl, rfl⟩ := List.mem_map.mp hr
  exact (filled_of_mem_comment hl).blanks_append n

/-- A step that writes no empty row, whatever a description says. -/
def Writer.Step.Solid : Step → Prop
  | .line s => OneLine s ∧ s ≠ ""
  | .doc .. | .docIf .. | .indent | .dedent => True
  | .lines _ | .blank => False

theorem onLines_solid : OnLines Step.Solid := ⟨fun _ h hne => ⟨h, hne⟩, trivial, trivial⟩

theorem Writer.Step.Solid.filled {s : Step} (h : s.Solid) (n : Nat) : ∀ r ∈ s.rows n, Filled r := by
  cases s with
  | line s => exact List.forall_mem_singleton.mpr ((filled_of_oneLine h.1 h.2).blanks_append n)
  | lines | blank => exact h.elim
  | indent | dedent => exact List.forall_mem_nil _
  | doc d text => exact filled_docRows n d text
  | docIf d text =>
    rw [Step.rows]
    split
    · exact List.forall_mem_nil _
    · exact filled_docRows n d text

theorem filled_rowsFrom {ss : List Step} (h : ∀ s ∈ ss, s.Solid) (width level : Nat) :
    ∀ r ∈ rowsFrom width level ss, Filled r :=
  forall_mem_rowsFrom (fun s hs n => (h s hs).filled n) width level

theorem compact_render {d : Dialect} {ss : List Step} (h : ∀ s ∈ ss, s.Solid) (hl : EndsInLine ss) :
    Compact (Writer.render d ss).toList := by
  rw [toList_render_of_endsInLine hl]
  refine .of_rows ?_ (filled_rowsFrom h d.indent 0)
  obtain ⟨ts, s, rfl, -⟩ := hl
  rw [rowsFrom_concat_line]
  exact List.append_ne_nil_of_right_ne_nil _ (List.cons_ne_nil _ _)

end Ambient
