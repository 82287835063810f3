import Ambient.Proofs.Avoids
import Ambient.Proofs.Rows
import Mathlib.Data.List.TakeWhile

/-!
The code lines of a Lua text, for a reader to whom a line feed and a carriage return both end a
line, and what a description adds to them: before a declaration, and behind an annotation.
-/
namespace Ambient

namespace Text

variable {cut : Char → Bool}

theorem splitWhere_append_left {s t p : List Char} {ps : List (List Char)}
    (hs : ∀ c ∈ s, cut c = false) (ht : splitWhere cut t = p :: ps) :
    splitWhere cut (s ++ t) = (s ++ p) :: ps := by
  induction s with
  | nil => exact ht
  | cons a s ih =>
    rw [List.forall_mem_cons] at hs
    simp [splitWhere, hs.1, ih hs.2]

/-- What has no cut in it prolongs the last piece. -/
theorem splitWhere_append_right (cut : Char → Bool) (s : List Char) :
    ∃ ps p, ∀ t, (∀ c ∈ t, cut c = false) → splitWhere cut (s ++ t) = ps ++ [p ++ t] := by
  induction s with
  | nil => exact ⟨[], [], fun t ht => splitWhere_of_forall ht⟩
  | cons a s ih =>
    obtain ⟨ps, p, h⟩ := ih
    by_cases ha : cut a
    · refine ⟨[] :: ps, p, fun t ht => ?_⟩
      simp [splitWhere, ha, h t ht]
    · cases ps with
      | nil =>
        refine ⟨[], a :: p, fun t ht => ?_⟩
        simp [splitWhere, ha, h t ht]
      | cons q qs =>
        refine ⟨(a :: q) :: qs, p, fun t ht => ?_⟩
        simp [splitWhere, ha, h t ht]

end Text

namespace Doc
open Text Writer

/-- A line that is neither blank nor, behind its spaces, a comment. -/
def isCode (l : List Char) : Bool :=
  !isAllBlank l && !List.isPrefixOf ['-', '-'] (l.dropWhile (· = ' '))

def codePieces (s : List Char) : List (List Char) := (splitWhere isBreak s).filter isCode

def codeLines (s : String) : List (List Char) := codePieces s.toList

theorem codePieces_terminated (rs : List (List Char)) (last : List Char) :
    codePieces (terminated rs ++ last) = rs.flatMap codePieces ++ codePieces last := by
  unfold codePieces
  rw [splitWhere_terminated (by decide), List.filter_append, List.filter_flatMap]

theorem codeLines_render (d : Dialect) (ss : List Step) :
    codeLines (render d ss) = (rowsFrom d.indent 0 ss).flatMap codePieces := by
  rcases List.eq_nil_or_concat (rowsFrom d.indent 0 ss) with h | ⟨rs, last, h⟩
  · have ht : ((empty d.indent).run ss).text.toList = [] := by
      rw [toList_run_text]
      change [] ++ terminated (rowsFrom d.indent 0 ss) = []
      rw [h]
      rfl
    have hr : render d ss = "" := by
      rw [render, build, String.toList_eq_nil_iff.mp ht]
      rfl
    rw [h, hr]
    rfl
  · rw [List.concat_eq_append] at h
    rw [codeLines, toList_render h, codePieces_terminated, h, List.flatMap_append,
      List.flatMap_singleton]

/-! Descriptions before a declaration. -/

/-- In no line of the text a piece behind a carriage return is code. -/
def Commented (text : String) : Prop :=
  ∀ l ∈ lines text, ∀ p ∈ (splitWhere isBreak l.toList).tail, isCode p = false

instance (text : String) : Decidable (Commented text) :=
  inferInstanceAs (Decidable (∀ l ∈ lines text, ∀ p ∈ (splitWhere isBreak l.toList).tail,
    isCode p = false))

theorem isCode_comment (n : Nat) (s : List Char) : isCode (blanks n ++ '-' :: '-' :: s) = false := by
  have hd : (blanks n ++ '-' :: '-' :: s).dropWhile (· = ' ') = '-' :: '-' :: s := by
    rw [List.dropWhile_append_of_pos (by simp [blanks])]
    simp
  simp [isCode, hd]

theorem codePieces_comment (n : Nat) (l : List Char) :
    codePieces (blanks n ++ '-' :: '-' :: '-' :: l) = (splitWhere isBreak l).tail.filter isCode := by
  obtain ⟨p, ps, hp, -⟩ := splitWhere_eq_cons isBreak l
  have hb : ∀ c ∈ blanks n ++ ['-', '-', '-'], isBreak c = false := by
    intro c hc
    rcases List.mem_append.mp hc with hc | hc
    · rw [List.eq_of_mem_replicate hc]
      decide
    · obtain rfl : c = '-' := by simpa using hc
      decide
  have hs := splitWhere_append_left hb hp
  have hc := isCode_comment n ('-' :: p)
  simp only [List.append_assoc, List.cons_append, List.nil_append] at hs
  rw [codePieces, hs, hp, List.filter_cons, hc]
  rfl

theorem codePieces_docRows (n : Nat) (text : String) :
    (docRows n .lua text).flatMap codePieces = [] ↔ Commented text := by
  have hr : docRows n .lua text =
      (linesOrEmpty text).map fun l => blanks n ++ '-' :: '-' :: '-' :: l.toList := by
    simp [docRows, comment]
  have hl : (∀ l ∈ linesOrEmpty text, ∀ p ∈ (splitWhere isBreak l.toList).tail, isCode p = false) ↔
      Commented text := by
    unfold linesOrEmpty
    split
    next he => simp [Commented, he, splitWhere]
    next => rfl
  rw [hr, List.flatMap_map, List.flatMap_eq_nil_iff, ← hl]
  refine forall₂_congr fun l _ => ?_
  rw [codePieces_comment, List.filter_eq_nil_iff]
  simp only [Bool.not_eq_true]

/-! Descriptions behind an annotation. -/

/-- The line that what follows would prolong. -/
def lastLine (s : List Char) : List Char := (splitWhere isBreak s).getLastD []

def OneLine (s : String) : Prop := ∀ c ∈ s.toList, isBreak c = false

instance (s : String) : Decidable (OneLine s) := List.decidableBAll _ s.toList

theorem oneLine_append {s t : String} : OneLine (s ++ t) ↔ OneLine s ∧ OneLine t := by
  simp only [OneLine, String.toList_append, List.mem_append, or_imp, forall_and]

/-- The only line of a comment is not code. -/
theorem isCode_lastLine {s : String} (h : OneLine s) (hc : ['-', '-'] <+: s.toList) :
    isCode (lastLine s.toList) = false := by
  obtain ⟨t, ht⟩ := hc
  rw [lastLine, splitWhere_of_forall h, ← ht]
  exact isCode_comment 0 t

theorem isCode_append_space {l : List Char} (h : isAllBlank l = false) (s : List Char) :
    isCode (l ++ ' ' :: s) = isCode l := by
  have ha : isAllBlank (l ++ ' ' :: s) = false := by
    rw [isAllBlank, List.all_append, ← isAllBlank, h, Bool.false_and]
  have hne : l.dropWhile (· = ' ') ≠ [] := by
    intro hd
    have hs := List.dropWhile_eq_nil_iff.mp hd
    have hb : isAllBlank l = true := by
      rw [isAllBlank, List.all_eq_true]
      intro c hc
      have he : c = ' ' := by simpa using hs c hc
      rw [he]
      decide
    rw [h] at hb
    cases hb
  have hd : (l ++ ' ' :: s).dropWhile (· = ' ') = l.dropWhile (· = ' ') ++ ' ' :: s := by
    rw [List.dropWhile_append, if_neg (by simpa using hne)]
  have hp : ['-', '-'] <+: l.dropWhile (· = ' ') ++ ' ' :: s ↔
      ['-', '-'] <+: l.dropWhile (· = ' ') :=
    ⟨fun hp => prefix_of_prefix_append_cons hp (by decide), fun hp => hp.trans (List.prefix_append _ _)⟩
  rw [isCode, isCode, ha, h, hd]
  congr 2
  rw [Bool.eq_iff_iff, List.isPrefixOf_iff_prefix, List.isPrefixOf_iff_prefix]
  exact hp

/-- What follows a space never takes a line of code away. -/
theorem isCode_of_isCode {p b s : List Char} (hb : b = [] ∨ b = [' ']) (h : isCode (p ++ b) = true) :
    isCode (p ++ ' ' :: s) = true := by
  cases hp : isAllBlank p with
  | false =>
    rw [isCode_append_space hp]
    rcases hb with rfl | rfl
    · rwa [List.append_nil] at h
    · rwa [isCode_append_space hp] at h
  | true =>
    have ha : isAllBlank (p ++ b) = true := by
      rw [isAllBlank, List.all_append, ← isAllBlank, hp, Bool.true_and]
      rcases hb with rfl | rfl <;> rfl
    simp [isCode, ha] at h

/-- Behind an annotation a text shows exactly if it makes the last line of it one of code. -/
theorem codePieces_trailing {s b t : List Char} (hb : b = [] ∨ b = [' '])
    (ht : ∀ c ∈ t, isBreak c = false) (hne : ' ' :: t ≠ b) :
    (codePieces (s ++ b)).length ≤ (codePieces (s ++ ' ' :: t)).length ∧
      (codePieces (s ++ ' ' :: t) = codePieces (s ++ b) ↔
        isCode (lastLine (s ++ ' ' :: t)) = false) := by
  obtain ⟨ps, p, h⟩ := splitWhere_append_right isBreak s
  have hbb : ∀ c ∈ b, isBreak c = false := by
    rcases hb with rfl | rfl
    · simp
    · simp [isBreak]
  have htt : ∀ c ∈ ' ' :: t, isBreak c = false := List.forall_mem_cons.mpr ⟨by decide, ht⟩
  have hl : lastLine (s ++ ' ' :: t) = p ++ ' ' :: t := by
    rw [lastLine, h _ htt, List.getLastD_concat]
  have hlb : codePieces (s ++ b) = ps.filter isCode ++ [p ++ b].filter isCode := by
    rw [codePieces, h b hbb, List.filter_append]
  have hlt : codePieces (s ++ ' ' :: t) = ps.filter isCode ++ [p ++ ' ' :: t].filter isCode := by
    rw [codePieces, h _ htt, List.filter_append]
  -- The texts differ in the line that ends them, so all depends on whether that is code.
  have hmono := isCode_of_isCode (p := p) (s := t) hb
  rw [hl, hlb, hlt, List.append_cancel_left_eq, List.length_append, List.length_append]
  cases hc : isCode (p ++ ' ' :: t) with
  | true =>
    have hlen : ([p ++ b].filter isCode).length ≤ 1 := List.length_filter_le _ _
    refine ⟨by simpa [hc] using hlen, ?_⟩
    have hn : [p ++ ' ' :: t].filter isCode ≠ [p ++ b].filter isCode := by
      intro he
      have hm : p ++ ' ' :: t ∈ [p ++ b].filter isCode := by
        rw [← he]
        simp [hc]
      exact hne (List.append_cancel_left (List.mem_singleton.mp (List.mem_filter.mp hm).1))
    simpa using hn
  | false =>
    have hcb : isCode (p ++ b) = false := by
      rw [← Bool.not_eq_true]
      intro hcb
      rw [hmono hcb] at hc
      cases hc
    simp [hc, hcb]

theorem mem_intercalate_space {xs : List (List Char)} {c : Char} (h : c ∈ [' '].intercalate xs) :
    c = ' ' ∨ ∃ x ∈ xs, c ∈ x := by
  induction xs with
  | nil => simp at h
  | cons x xs ih =>
    cases xs with
    | nil =>
      rw [List.intercalate_singleton] at h
      exact Or.inr ⟨x, List.mem_cons_self, h⟩
    | cons y ys =>
      rw [List.intercalate_cons_cons] at h
      simp only [List.mem_append, List.mem_singleton] at h
      rcases h with (h | h) | h
      · exact Or.inr ⟨x, List.mem_cons_self, h⟩
      · exact Or.inl h
      · rcases ih h with h | ⟨z, hz, h⟩
        · exact Or.inl h
        · exact Or.inr ⟨z, List.mem_cons_of_mem x hz, h⟩

theorem mem_of_mem_trim {s : List Char} {c : Char} (h : c ∈ trim s) : c ∈ s := by
  rw [trim, trimEnd, dropEndWhile, List.mem_reverse] at h
  have hm := List.mem_reverse.mp ((List.dropWhile_sublist isBlank).subset h)
  exact (List.dropWhile_sublist isBlank).subset hm

theorem oneLine_flatten (text : String) : OneLine (flatten text) := by
  intro c h
  rw [flatten, String.toList_ofList, flattenChars] at h
  rcases mem_intercalate_space h with rfl | ⟨x, hx, hc⟩
  · decide
  · obtain ⟨p, hp, rfl⟩ := List.mem_map.mp (List.mem_filter.mp hx).1
    exact not_cut_of_mem_splitWhere hp c (mem_of_mem_trim hc)

end Doc
end Ambient
