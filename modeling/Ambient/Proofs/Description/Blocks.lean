import Ambient.Proofs.Avoids
import Ambient.Proofs.Rows

/-!
Reading TypeScript text without its doc blocks, and the rows of which a written block consists.
-/
namespace Ambient.Doc
open Text Writer

def opening : List Char := ['/', '*', '*']

def closing : List Char := ['*', '/']

mutual

/-- The text outside of blocks; `pad` blanks are kept back, as they may be the margin of a block. -/
def outside (pad : Nat) : List Char → List Char
  | '/' :: '*' :: '*' :: cs => inside cs
  | ' ' :: cs => outside (pad + 1) cs
  | c :: cs => blanks pad ++ c :: outside 0 cs
  | [] => blanks pad

/-- The text behind a block; the line break after it belongs to the block. -/
def inside : List Char → List Char
  | '*' :: '/' :: '\n' :: cs => outside 0 cs
  | '*' :: '/' :: cs => outside 0 cs
  | _ :: cs => inside cs
  | [] => []

end

/-- The text without doc blocks, the blanks before them and the line breaks behind them. -/
def withoutBlocks (s : String) : String := String.ofList (outside 0 s.toList)

/-! Steps of the reader. -/

theorem outside_blanks (pad n : Nat) (s : List Char) :
    outside pad (blanks n ++ s) = outside (pad + n) s := by
  induction n generalizing pad with
  | zero => rfl
  | succ n ih =>
    change outside pad (' ' :: (blanks n ++ s)) = _
    rw [outside, ih, Nat.add_right_comm, Nat.add_assoc]

theorem outside_opening (pad : Nat) (s : List Char) : outside pad (opening ++ s) = inside s := by
  rw [opening, List.cons_append, List.cons_append, List.cons_append, outside]
  rfl

theorem outside_cons {c : Char} {s : List Char} (pad : Nat) (h : ¬ opening <+: c :: s)
    (hc : c ≠ ' ') : outside pad (c :: s) = blanks pad ++ c :: outside 0 s := by
  rw [outside]
  · rintro t rfl rfl
    exact h (List.prefix_append opening t)
  · exact hc

theorem inside_cons {c : Char} {s : List Char} (h : ¬ closing <+: c :: s) :
    inside (c :: s) = inside s := by
  rw [inside]
  · rintro t rfl rfl
    exact h (List.prefix_append closing ('\n' :: t))
  · rintro t rfl rfl
    exact h (List.prefix_append closing t)

/-- Text in which no block opens is kept, with the line break behind it. -/
theorem outside_append {s : List Char} (h : Avoids opening s) (pad : Nat) (t : List Char) :
    outside pad (s ++ '\n' :: t) = blanks pad ++ s ++ '\n' :: outside 0 t := by
  induction s generalizing pad with
  | nil =>
    rw [List.append_nil, List.nil_append]
    exact outside_cons pad (by simp [opening]) (by decide)
  | cons c s ih =>
    obtain ⟨hp, hs⟩ := Avoids.cons_iff.mp h
    by_cases hc : c = ' '
    · subst hc
      rw [List.cons_append, outside, ih hs, blanks, List.replicate_succ']
      simp [blanks]
    · have hp' : ¬ opening <+: c :: (s ++ '\n' :: t) := fun ho =>
        hp (prefix_of_prefix_append_cons (s := c :: s) ho (by decide))
      rw [List.cons_append, outside_cons pad hp' hc, ih hs]
      simp [blanks]

theorem outside_eq {s : List Char} (h : Avoids opening s) (pad : Nat) :
    outside pad s = blanks pad ++ s := by
  induction s generalizing pad with
  | nil => rw [outside, List.append_nil]
  | cons c s ih =>
    obtain ⟨hp, hs⟩ := Avoids.cons_iff.mp h
    by_cases hc : c = ' '
    · subst hc
      rw [outside, ih hs, blanks, List.replicate_succ']
      simp [blanks]
    · rw [outside_cons pad hp hc, ih hs]
      simp [blanks]

/-- Inside a block everything is passed over up to the first closing mark. -/
theorem inside_append {s : List Char} (h : Avoids closing s) (t : List Char) :
    inside (s ++ closing ++ '\n' :: t) = outside 0 t := by
  induction s with
  | nil => rw [List.nil_append, closing, List.cons_append, List.cons_append, List.nil_append, inside]
  | cons c s ih =>
    obtain ⟨hp, hs⟩ := Avoids.cons_iff.mp h
    have hp' : ¬ closing <+: c :: (s ++ closing ++ '\n' :: t) := by
      intro hc
      cases s with
      | nil => simp [closing] at hc
      | cons d s => exact hp (by simpa [closing, List.cons_prefix_cons] using hc)
    rw [List.cons_append, List.cons_append, inside_cons hp', ih hs]

/-! Marks: patterns that stand within a row. -/

/-- Neither a line break nor a space belongs to the pattern. -/
structure IsMark (pattern : List Char) : Prop where
  ne_nil : pattern ≠ []
  newline : '\n' ∉ pattern
  space : ' ' ∉ pattern

theorem opening_isMark : IsMark opening := ⟨by decide, by decide, by decide⟩

theorem closing_isMark : IsMark closing := ⟨by decide, by decide, by decide⟩

namespace IsMark

variable {pattern s t : List Char}

theorem avoids_nil (h : IsMark pattern) : Avoids pattern [] := Avoids.nil h.ne_nil

theorem avoids_space_cons (h : IsMark pattern) : Avoids pattern (' ' :: s) ↔ Avoids pattern s :=
  Avoids.cons_iff_of_not_mem h.ne_nil h.space

theorem avoids_append_space (h : IsMark pattern) :
    Avoids pattern (s ++ ' ' :: t) ↔ Avoids pattern s ∧ Avoids pattern t :=
  Avoids.append_cons_iff h.ne_nil h.space

theorem avoids_newline_cons (h : IsMark pattern) : Avoids pattern ('\n' :: s) ↔ Avoids pattern s :=
  Avoids.cons_iff_of_not_mem h.ne_nil h.newline

theorem avoids_blanks_append (h : IsMark pattern) (hs : Avoids pattern s) (n : Nat) :
    Avoids pattern (blanks n ++ s) := by
  rw [Avoids.append_iff_of_not_mem h.ne_nil]
  · exact hs
  · intro c hc
    rw [List.eq_of_mem_replicate hc]
    exact h.space

theorem avoids_terminated (h : IsMark pattern) {rs : List (List Char)}
    (hr : ∀ r ∈ rs, Avoids pattern r) (ht : Avoids pattern t) :
    Avoids pattern (terminated rs ++ t) := by
  induction rs with
  | nil => exact ht
  | cons r rs ih =>
    rw [List.forall_mem_cons] at hr
    rw [terminated_cons, List.append_assoc, List.cons_append,
      Avoids.append_cons_iff h.ne_nil h.newline]
    exact ⟨hr.1, ih hr.2⟩

theorem avoids_reindent (h : IsMark pattern) (hs : Avoids pattern s) (n : Nat) :
    Avoids pattern (reindent n s) := by
  unfold reindent
  split
  · exact h.avoids_nil
  · exact h.avoids_blanks_append hs n

end IsMark

/-! Blocks. -/

/-- The rows of one block, behind any margin: all on one row, or between its first and last. -/
inductive Block : List (List Char) → Prop
  | row (n : Nat) {s : List Char} (h : Avoids closing s) (hn : '\n' ∉ s) :
      Block [blanks n ++ (opening ++ ' ' :: s ++ ' ' :: closing)]
  | rows (n k : Nat) {rs : List (List Char)} (h : ∀ r ∈ rs, Avoids closing r ∧ '\n' ∉ r) :
      Block ((blanks n ++ opening) :: rs ++ [blanks k ++ ' ' :: closing])

theorem Block.outside_eq {b : List (List Char)} (h : Block b) (t : List Char) :
    outside 0 (terminated b ++ t) = outside 0 t := by
  cases h with
  | row n h hn =>
    rename_i s
    -- What stands between the marks is passed over, as it does not close the block.
    have hs : Avoids closing (' ' :: s ++ [' ']) := by
      rw [List.cons_append, closing_isMark.avoids_space_cons, closing_isMark.avoids_append_space]
      exact ⟨h, closing_isMark.avoids_nil⟩
    calc outside 0 (terminated [blanks n ++ (opening ++ ' ' :: s ++ ' ' :: closing)] ++ t)
        = outside 0 (blanks n ++ (opening ++ ((' ' :: s ++ [' ']) ++ closing ++ '\n' :: t))) := by
          simp
      _ = outside 0 t := by rw [outside_blanks, outside_opening, inside_append hs]
  | rows n k h =>
    rename_i rs
    have hs : Avoids closing ('\n' :: (terminated rs ++ (blanks k ++ [' ']))) := by
      rw [closing_isMark.avoids_newline_cons]
      refine closing_isMark.avoids_terminated (fun r hr => (h r hr).1) ?_
      refine closing_isMark.avoids_blanks_append ?_ k
      exact closing_isMark.avoids_space_cons.mpr closing_isMark.avoids_nil
    calc outside 0 (terminated ((blanks n ++ opening) :: rs ++ [blanks k ++ ' ' :: closing]) ++ t)
        = outside 0 (blanks n ++ (opening ++ ('\n' :: (terminated rs ++ (blanks k ++ [' '])) ++
            closing ++ '\n' :: t))) := by simp
      _ = outside 0 t := by rw [outside_blanks, outside_opening, inside_append hs]

/-! The rows of a description. -/

theorem head?_shieldChars (s : List Char) : (shieldChars s).head? = s.head? := by
  fun_cases shieldChars s <;> rfl

theorem mem_shieldChars {s : List Char} {c : Char} (h : c ∈ shieldChars s) : c ∈ s ∨ c = '\\' := by
  fun_induction shieldChars s with
  | case1 cs ih =>
    simp only [List.mem_cons] at h ⊢
    grind
  | case2 a cs hne ih =>
    simp only [List.mem_cons] at h ⊢
    grind
  | case3 => exact Or.inl h

theorem avoids_shieldChars (s : List Char) : Avoids closing (shieldChars s) := by
  fun_induction shieldChars s with
  | case1 cs ih =>
    rw [Avoids.cons_iff, Avoids.cons_iff_of_not_mem (by decide) (by decide), Avoids.cons_iff]
    exact ⟨by simp [closing], by simp [closing], ih⟩
  | case2 c cs hne ih =>
    refine Avoids.cons_iff.mpr ⟨fun hc => ?_, ih⟩
    obtain ⟨rfl, hs⟩ := List.cons_prefix_cons.mp hc
    obtain ⟨t, ht⟩ := hs
    have hd : cs.head? = some '/' := by rw [← head?_shieldChars, ← ht]; rfl
    obtain ⟨ds, rfl⟩ := List.head?_eq_some_iff.mp hd
    exact hne ds rfl rfl
  | case3 => exact closing_isMark.avoids_nil

theorem newline_not_mem_linesOrEmpty {text l : String} (h : l ∈ linesOrEmpty text) :
    '\n' ∉ l.toList := by
  unfold linesOrEmpty at h
  split at h
  · obtain rfl : l = "" := by simpa using h
    simp
  · obtain ⟨cs, hcs, rfl⟩ := List.mem_map.mp h
    rw [String.toList_ofList]
    exact newline_not_mem_lineList hcs

theorem shield_inside {text l : String} (h : l ∈ linesOrEmpty text) :
    Avoids closing (shield l).toList ∧ '\n' ∉ (shield l).toList := by
  unfold shield
  rw [String.toList_ofList]
  refine ⟨avoids_shieldChars _, fun hm => ?_⟩
  rcases mem_shieldChars hm with hm | hm
  · exact newline_not_mem_linesOrEmpty h hm
  · exact absurd hm (by decide)

theorem starred_inside {s : String} (h : Avoids closing s.toList ∧ '\n' ∉ s.toList) :
    Avoids closing (starred s).toList ∧ '\n' ∉ (starred s).toList := by
  unfold starred
  split
  · simp only [String.reduceToList]
    refine ⟨?_, by decide⟩
    rw [closing_isMark.avoids_space_cons, Avoids.cons_iff]
    exact ⟨by simp [closing], closing_isMark.avoids_nil⟩
  · obtain ⟨ha, hn⟩ := h
    simp only [String.toList_append, String.reduceToList, List.cons_append, List.nil_append]
    refine ⟨?_, by simpa using hn⟩
    rw [closing_isMark.avoids_space_cons, Avoids.cons_iff, closing_isMark.avoids_space_cons]
    exact ⟨by simp [closing], ha⟩

/-- A description is written as one block, whatever it says. -/
theorem block_docRows (n : Nat) (text : String) : Block (docRows n .typeScript text) := by
  have hl := fun l (h : l ∈ linesOrEmpty text) => shield_inside h
  unfold docRows comment
  split
  next h => cases h
  next l _ h =>
    rw [h, List.forall_mem_singleton] at hl
    have hb := Block.row n hl.1 hl.2
    simpa [opening, closing] using hb
  next ls hne _ _ =>
    have hr : ∀ r ∈ (linesOrEmpty text).map fun l => blanks n ++ (starred (shield l)).toList,
        Avoids closing r ∧ '\n' ∉ r := by
      intro r hr
      obtain ⟨l, hm, rfl⟩ := List.mem_map.mp hr
      obtain ⟨ha, hn⟩ := starred_inside (hl l hm)
      refine ⟨closing_isMark.avoids_blanks_append ha n, ?_⟩
      rw [List.mem_append, not_or]
      exact ⟨by simp [blanks], hn⟩
    have hb := Block.rows n n hr
    simpa [opening, closing, Function.comp_def] using hb

end Ambient.Doc
