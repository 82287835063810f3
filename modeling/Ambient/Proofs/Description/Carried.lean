import Ambient.Proofs.Description.Blocks
import Mathlib.Data.List.Forall2

/-!
Texts that carry blocks between their rows, and the bare texts that are left without them. The
relation passes from steps to their rows, and through the margin of a text within a text.
-/
namespace Ambient.Doc
open Text Writer

/-- Rows beside the same rows without the blocks between them. -/
inductive Documented : List (List Char) → List (List Char) → Prop
  | nil : Documented [] []
  | code {r : List Char} {rs qs : List (List Char)} (hr : Avoids opening r)
      (h : Documented rs qs) : Documented (r :: rs) (r :: qs)
  | block {b rs qs : List (List Char)} (hb : Block b) (h : Documented rs qs) :
      Documented (b ++ rs) qs

namespace Documented

variable {rs qs rs' qs' : List (List Char)}

theorem outside_eq (h : Documented rs qs) (t : List Char) :
    outside 0 (terminated rs ++ t) = terminated qs ++ outside 0 t := by
  induction h with
  | nil => rfl
  | code hr h ih =>
    rw [terminated_cons, List.append_assoc, List.cons_append, outside_append hr, ih,
      terminated_cons]
    simp [blanks]
  | block hb h ih => rw [terminated_append, List.append_assoc, hb.outside_eq, ih]

theorem append (h : Documented rs qs) (h' : Documented rs' qs') :
    Documented (rs ++ rs') (qs ++ qs') := by
  induction h with
  | nil => exact h'
  | code hr h ih => exact .code hr ih
  | block hb h ih =>
    rw [List.append_assoc]
    exact .block hb ih

theorem of_forall (h : ∀ r ∈ rs, Avoids opening r) : Documented rs rs := by
  induction rs with
  | nil => exact .nil
  | cons r rs ih =>
    rw [List.forall_mem_cons] at h
    exact .code h.1 (ih h.2)

theorem of_block {b : List (List Char)} (hb : Block b) : Documented b [] := by
  have h := Documented.block hb .nil
  rwa [List.append_nil] at h

end Documented

/-! Rows behind a further margin. -/

/-- The rows that a row becomes where its text is written line by line. -/
def margined (n : Nat) (r : List Char) : List (List Char) := (pieces r).map (reindent n ∘ chomp)

theorem blanks_append_blanks (n k : Nat) (s : List Char) :
    blanks n ++ (blanks k ++ s) = blanks (n + k) ++ s := by
  rw [← List.append_assoc, blanks, blanks, List.replicate_append_replicate, blanks]

theorem newline_not_mem_reindent {l : List Char} (h : '\n' ∉ l) (n : Nat) :
    '\n' ∉ reindent n l := by
  unfold reindent
  split
  · simp
  · rw [List.mem_append, not_or]
    exact ⟨by simp [blanks], h⟩

theorem avoids_margined {r l : List Char} (h : Avoids opening r) {n : Nat}
    (hl : l ∈ margined n r) : Avoids opening l := by
  obtain ⟨p, hp, rfl⟩ := List.mem_map.mp hl
  refine opening_isMark.avoids_reindent (h.of_infix ?_) n
  exact (chomp_isPrefix p).isInfix.trans (infix_of_mem_splitWhere hp)

theorem reindent_chomp {s : List Char} (hne : s ≠ []) (h : s.getLast? ≠ some '\r') (n k : Nat) :
    reindent n (chomp (blanks k ++ s)) = blanks (n + k) ++ s := by
  have hl : (blanks k ++ s).getLast? ≠ some '\r' := by
    rwa [List.getLast?_append_of_ne_nil _ hne]
  rw [chomp, if_neg hl, reindent, if_neg (by simp [hne]), blanks_append_blanks]

theorem Block.newline_not_mem {b : List (List Char)} (h : Block b) : ∀ r ∈ b, '\n' ∉ r := by
  cases h with
  | row n h hn => simpa [blanks, opening, closing] using hn
  | rows n k h =>
    have hn := fun r hr => (h r hr).2
    simpa [blanks, opening, closing, or_imp, forall_and] using hn

/-- A block stays a block behind a margin. -/
theorem Block.map {b : List (List Char)} (h : Block b) (n : Nat) :
    Block (b.map (reindent n ∘ chomp)) := by
  cases h with
  | row k h hn =>
    rename_i s
    have hr := reindent_chomp (s := opening ++ ' ' :: s ++ ' ' :: closing) (by simp [opening])
      (by simp [closing, List.getLast?_cons]) n k
    rw [List.map_singleton, Function.comp_apply, hr]
    exact .row (n + k) h hn
  | rows k l h =>
    rename_i rs
    have ho := reindent_chomp (s := opening) (by decide) (by decide) n k
    have hc := reindent_chomp (s := ' ' :: closing) (by decide) (by decide) n l
    have hr : ∀ r ∈ rs.map (reindent n ∘ chomp), Avoids closing r ∧ '\n' ∉ r := by
      intro r hr
      obtain ⟨q, hq, rfl⟩ := List.mem_map.mp hr
      obtain ⟨ha, hn⟩ := h q hq
      have hp := chomp_isPrefix q
      exact ⟨closing_isMark.avoids_reindent (ha.of_infix hp.isInfix) n,
        newline_not_mem_reindent (fun hm => hn (hp.subset hm)) n⟩
    rw [List.map_append, List.map_cons, List.map_singleton, Function.comp_apply,
      Function.comp_apply, ho, hc]
    exact .rows (n + k) (n + l) hr

theorem Block.margined {b : List (List Char)} (h : Block b) (n : Nat) :
    Block (b.flatMap (margined n)) := by
  have he : b.flatMap (Doc.margined n) = b.map (reindent n ∘ chomp) := by
    rw [← List.flatMap_pure_eq_map]
    refine List.flatMap_congr fun r hr => ?_
    rw [Doc.margined, pieces_of_not_mem (h.newline_not_mem r hr)]
    rfl
  rw [he]
  exact h.map n

theorem Documented.margined {rs qs : List (List Char)} (h : Documented rs qs) (n : Nat) :
    Documented (rs.flatMap (margined n)) (qs.flatMap (margined n)) := by
  induction h with
  | nil => exact .nil
  | code hr h ih =>
    rw [List.flatMap_cons, List.flatMap_cons]
    exact (Documented.of_forall fun l hl => avoids_margined hr hl).append ih
  | block hb h ih =>
    rw [List.flatMap_append]
    exact .block (hb.margined n) ih

/-! Texts. -/

/-- A text beside the bare text that is left without its blocks; their last lines are the same. -/
def Carries (s bare : String) : Prop :=
  ∃ rs qs last, Documented rs qs ∧ Avoids opening last ∧
    s.toList = terminated rs ++ last ∧ bare.toList = terminated qs ++ last

namespace Carries

variable {s bare : String}

theorem withoutBlocks_eq (h : Carries s bare) : withoutBlocks s = bare := by
  obtain ⟨rs, qs, last, hd, hl, hs, hb⟩ := h
  rw [withoutBlocks, hs, hd.outside_eq, Doc.outside_eq hl, blanks, List.replicate_zero,
    List.nil_append, ← hb, String.ofList_toList]

/-- A text keeps its blocks where it is written line by line. -/
theorem documented_lines (h : Carries s bare) (n : Nat) :
    Documented ((Step.lines s).rows n) ((Step.lines bare).rows n) := by
  obtain ⟨rs, qs, last, hd, hl, hs, hb⟩ := h
  have hm : ∀ ps : List (List Char),
      (ps.flatMap pieces).map (reindent n ∘ chomp) = ps.flatMap (margined n) := by
    intro ps
    rw [List.map_flatMap]
    rfl
  have hlast : Documented ((lineList last).map (reindent n)) ((lineList last).map (reindent n)) := by
    refine Documented.of_forall fun r hr => ?_
    obtain ⟨l, hl', rfl⟩ := List.mem_map.mp hr
    exact opening_isMark.avoids_reindent (hl.of_infix (infix_of_mem_lineList hl')) n
  simp only [Step.rows, hs, hb, lineList_terminated, List.map_append, List.map_map, hm]
  exact (hd.margined n).append hlast

end Carries

/-! Steps. -/

/-- Steps beside the same steps without descriptions. -/
inductive Bared : List Step → List Step → Prop
  | nil : Bared [] []
  | doc (text : String) {ss ts : List Step} (h : Bared ss ts) :
      Bared (.doc .typeScript text :: ss) ts
  | docIf (text : String) {ss ts : List Step} (h : Bared ss ts) :
      Bared (.docIf .typeScript text :: ss) (.docIf .typeScript "" :: ts)
  | line {s : String} (hs : Avoids opening s.toList) {ss ts : List Step} (h : Bared ss ts) :
      Bared (.line s :: ss) (.line s :: ts)
  | lines {s bare : String} (hs : Carries s bare) {ss ts : List Step} (h : Bared ss ts) :
      Bared (.lines s :: ss) (.lines bare :: ts)
  | layout {s : Step} (hs : s ∈ [.blank, .indent, .dedent]) {ss ts : List Step} (h : Bared ss ts) :
      Bared (s :: ss) (s :: ts)

namespace Bared

variable {ss ts ss' ts' : List Step}

theorem append (h : Bared ss ts) (h' : Bared ss' ts') : Bared (ss ++ ss') (ts ++ ts') := by
  induction h with
  | nil => exact h'
  | doc text h ih => exact .doc text ih
  | docIf text h ih => exact .docIf text ih
  | line hs h ih => exact .line hs ih
  | lines hs h ih => exact .lines hs ih
  | layout hs h ih => exact .layout hs ih

theorem levelAfter_eq (h : Bared ss ts) (level : Nat) : levelAfter level ss = levelAfter level ts := by
  induction h generalizing level with
  | nil => rfl
  | doc text h ih | docIf text h ih | line hs h ih | lines hs h ih | layout hs h ih => exact ih _

theorem documented (h : Bared ss ts) (width level : Nat) :
    Documented (rowsFrom width level ss) (rowsFrom width level ts) := by
  induction h generalizing level with
  | nil => exact .nil
  | doc text h ih => exact .block (block_docRows _ text) (ih level)
  | docIf text h ih =>
    have hr : Documented ((Step.docIf .typeScript text).rows (level * width)) [] := by
      rw [Step.rows]
      split
      · exact .nil
      · exact .of_block (block_docRows _ text)
    exact hr.append (ih level)
  | line hs h ih => exact .code (opening_isMark.avoids_blanks_append hs _) (ih level)
  | lines hs h ih => exact (hs.documented_lines _).append (ih level)
  | @layout s hs ss ts h ih =>
    have hr : ∀ r ∈ s.rows (level * width), r = [] := by
      simp only [List.mem_cons, List.not_mem_nil, or_false] at hs
      rcases hs with rfl | rfl | rfl <;> simp [Step.rows]
    have hd : Documented (s.rows (level * width)) (s.rows (level * width)) := by
      refine .of_forall fun r hm => ?_
      rw [hr r hm]
      exact opening_isMark.avoids_nil
    exact hd.append (ih _)

/-- Steps that end with a line of code render to a text that carries the bare one. -/
theorem carries_render (h : Bared ss ts) (d : Dialect) {s : String} (hs : Avoids opening s.toList) :
    Carries (render d (ss ++ [.line s])) (render d (ts ++ [.line s])) := by
  refine ⟨rowsFrom d.indent 0 ss, rowsFrom d.indent 0 ts, _, h.documented d.indent 0, ?_,
    toList_render (rowsFrom_concat_line _ _ _ _), ?_⟩
  · exact opening_isMark.avoids_blanks_append hs _
  · rw [h.levelAfter_eq]
    exact toList_render (rowsFrom_concat_line _ _ _ _)

end Bared
end Ambient.Doc
