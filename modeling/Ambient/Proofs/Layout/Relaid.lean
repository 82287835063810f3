import Ambient.Proofs.Layout.Namespace

/-!
A text whose lines are read and written again behind a margin, character by character: which carriage
returns are lost, where the margin goes, and which pieces of the text are left as they are.
-/
namespace Ambient
open Doc Text Writer

/--
A text as a namespace lays out its lines again: a carriage return before a line break is lost, and the
margin goes before each line that is not empty. The mark says whether a line begins here.
-/
def relaid (margin : Nat) : Bool → List Char → List Char
  | begins, [] => if begins then [] else ['\n']
  | _, '\n' :: cs => '\n' :: relaid margin true cs
  | _, '\r' :: '\n' :: cs => '\n' :: relaid margin true cs
  | begins, c :: cs => (if begins then blanks margin else []) ++ c :: relaid margin false cs

/-- No line break begins with this character before the rest. -/
def Unbroken (c : Char) (cs : List Char) : Prop := c ≠ '\n' ∧ ¬ (c = '\r' ∧ cs.head? = some '\n')

theorem relaid_cons {c : Char} {cs : List Char} (h : Unbroken c cs) (margin : Nat) (begins : Bool) :
    relaid margin begins (c :: cs) =
      (if begins then blanks margin else []) ++ c :: relaid margin false cs := by
  obtain ⟨hn, hr⟩ := h
  rw [relaid.eq_4]
  · exact hn
  · rintro cs' hc rfl
    exact hr ⟨hc, rfl⟩

theorem chomp_cons {c : Char} {p : List Char} (h : p ≠ []) : chomp (c :: p) = c :: chomp p := by
  unfold chomp
  rw [List.getLast?_cons_of_ne_nil h, List.dropLast_cons_of_ne_nil h]
  split <;> rfl

theorem unbroken_of_not_mem {c : Char} {cs : List Char} (h : '\n' ∉ c :: cs) : Unbroken c cs :=
  ⟨fun hc => h (hc ▸ List.mem_cons_self),
    fun hr => h (List.mem_cons_of_mem c (List.mem_of_head? hr.2))⟩

theorem unbroken_append {c : Char} {p : List Char} (h : '\n' ∉ c :: p) (hne : p ≠ [])
    (cs : List Char) :
    Unbroken c (p ++ cs) := by
  have hs := unbroken_of_not_mem h
  rwa [Unbroken, List.head?_append_of_ne_nil p hne]

/-- A line up to its break, behind text and at its own beginning. -/
theorem relaid_line {p : List Char} (h : '\n' ∉ p) (margin : Nat) (cs : List Char) :
    relaid margin false (p ++ '\n' :: cs) = chomp p ++ '\n' :: relaid margin true cs ∧
      relaid margin true (p ++ '\n' :: cs) =
        reindent margin (chomp p) ++ '\n' :: relaid margin true cs := by
  induction p with
  | nil => exact ⟨rfl, rfl⟩
  | cons c p ih =>
    obtain ⟨ih, -⟩ := ih fun hm => h (List.mem_cons_of_mem c hm)
    by_cases hp : p = []
    · subst hp
      by_cases hr : c = '\r'
      · subst hr
        exact ⟨rfl, rfl⟩
      · have hs : Unbroken c ('\n' :: cs) := ⟨(unbroken_of_not_mem h).1, fun h => hr h.1⟩
        have hch : chomp [c] = [c] := if_neg (by simpa using hr)
        rw [List.singleton_append, relaid_cons hs, relaid_cons hs, hch]
        exact ⟨rfl, by simp [reindent, relaid]⟩
    · have hs := unbroken_append h hp ('\n' :: cs)
      rw [List.cons_append, relaid_cons hs, relaid_cons hs, ih, chomp_cons hp]
      exact ⟨rfl, by simp [reindent]⟩

theorem relaid_of_not_mem {p : List Char} (h : '\n' ∉ p) (margin : Nat) :
    relaid margin false p = p ++ ['\n'] := by
  induction p with
  | nil => rfl
  | cons c p ih =>
    rw [relaid_cons (unbroken_of_not_mem h), ih fun hm => h (List.mem_cons_of_mem c hm)]
    rfl

theorem lineList_line {p : List Char} (h : '\n' ∉ p) (cs : List Char) :
    lineList (p ++ '\n' :: cs) = chomp p :: lineList cs := by
  have hl := lineList_terminated [p] cs
  rwa [terminated_cons, terminated_nil, List.append_assoc, List.flatMap_singleton,
    pieces_of_not_mem h] at hl

/-- The lines of a text behind their margin are the text laid out again. -/
theorem terminated_reindent (margin : Nat) (s : List Char) :
    terminated ((lineList s).map (reindent margin)) = relaid margin true s := by
  induction hn : s.length using Nat.strong_induction_on generalizing s with
  | h n ih =>
    by_cases h : '\n' ∈ s
    · obtain ⟨p, cs, rfl, hp⟩ := List.eq_append_cons_of_mem h
      have hlt : cs.length < n := by
        rw [← hn, List.length_append, List.length_cons]
        omega
      rw [lineList_line hp, List.map_cons, terminated_cons, ih cs.length hlt cs rfl,
        (relaid_line hp margin cs).2]
    · have hp : splitWhere (· == '\n') s = [s] := pieces_of_not_mem h
      cases s with
      | nil => rfl
      | cons c cs =>
        rw [relaid_cons (unbroken_of_not_mem h), lineList, hp,
          relaid_of_not_mem fun hm => h (List.mem_cons_of_mem c hm)]
        simp [linesOfPieces, reindent]

theorem relaid_return_newline (margin : Nat) (begins : Bool) (cs : List Char) :
    relaid margin begins ('\r' :: '\n' :: cs) = '\n' :: relaid margin true cs := rfl

/-- Neither a line break nor a margin reaches beyond a space. -/
theorem exists_relaid_append (margin : Nat) (begins : Bool) (u : List Char) :
    ∃ front, ∀ cs, relaid margin begins (u ++ ' ' :: cs) = front ++ relaid margin false cs := by
  induction u generalizing begins with
  | nil =>
    refine ⟨(if begins then blanks margin else []) ++ [' '], fun cs => ?_⟩
    rw [List.nil_append, relaid_cons ⟨by decide, by simp⟩, List.append_assoc]
    rfl
  | cons c u ih =>
    by_cases hn : c = '\n'
    · subst hn
      obtain ⟨front, hf⟩ := ih true
      exact ⟨'\n' :: front, fun cs => congrArg (List.cons '\n') (hf cs)⟩
    · by_cases hr : c = '\r' ∧ u.head? = some '\n'
      · obtain ⟨rfl, hu⟩ := hr
        obtain ⟨u', rfl⟩ : ∃ u', u = '\n' :: u' := List.head?_eq_some_iff.mp hu
        exact ih begins
      · obtain ⟨front, hf⟩ := ih false
        refine ⟨(if begins then blanks margin else []) ++ c :: front, fun cs => ?_⟩
        have hs : Unbroken c (u ++ ' ' :: cs) := ⟨hn, fun h => hr ⟨h.1, by cases u <;> simp_all⟩⟩
        rw [List.cons_append, relaid_cons hs, hf, List.append_assoc, List.cons_append]

/-! What stands unchanged in the layout. -/

/-- There is nothing to move, or only breaks and then spaces follow the first break. -/
def Unmoved (margin : Nat) (begins : Bool) (e : List Char) : Prop :=
  margin = 0 ∨
    ∀ c ∈ (if begins then e else e.dropWhile (· ≠ '\n')).dropWhile (· = '\n'), c = ' '

/-- No carriage return comes before a line feed, and no margin into the text. -/
def Untouched (margin : Nat) (begins : Bool) (next : Option Char) (e : List Char) : Prop :=
  ¬ ['\r', '\n'] <:+: e ++ next.toList ∧ Unmoved margin begins e

theorem untouched_newline_cons {margin : Nat} {begins : Bool} {next : Option Char} {e : List Char} :
    Untouched margin begins next ('\n' :: e) ↔ Untouched margin true next e := by
  have hu : Unmoved margin begins ('\n' :: e) ↔ Unmoved margin true e := by
    cases begins <;> simp [Unmoved]
  rw [Untouched, Untouched, hu, List.cons_append, List.infix_cons_iff, List.cons_prefix_cons]
  simp

theorem untouched_cons {c : Char} {margin : Nat} {begins : Bool} {next : Option Char}
    {e : List Char} (h : Unbroken c (e ++ next.toList)) (hb : begins = false ∨ margin = 0) :
    Untouched margin begins next (c :: e) ↔ Untouched margin false next e := by
  have hu : Unmoved margin begins (c :: e) ↔ Unmoved margin false e := by
    rcases hb with rfl | rfl <;> simp [Unmoved, h.1]
  have hc : ¬ ['\r', '\n'] <+: c :: (e ++ next.toList) := by
    intro hp
    obtain ⟨rfl, t, ht⟩ := List.cons_prefix_cons.mp hp
    exact h.2 ⟨rfl, by rw [← ht]; rfl⟩
  rw [Untouched, Untouched, hu, List.cons_append, List.infix_cons_iff]
  simp [hc]

theorem prefix_blanks_iff {n : Nat} (hn : n ≠ 0) {margin : Nat} (e k back : List Char) :
    e <+: blanks n ++ (relaid margin false (e ++ k) ++ back) ↔ ∀ c ∈ e, c = ' ' := by
  induction e with
  | nil => simp
  | cons c e ih =>
    obtain ⟨m, rfl⟩ := Nat.exists_eq_succ_of_ne_zero hn
    have hb : blanks (m + 1) = ' ' :: blanks m := rfl
    have hb' : blanks m ++ [' '] = blanks (m + 1) := by rw [blanks, blanks, ← List.replicate_succ']
    rw [List.forall_mem_cons, ← ih]
    by_cases hc : c = ' '
    · subst hc
      have hs : blanks (m + 1) ++ (relaid margin false (' ' :: (e ++ k)) ++ back) =
          ' ' :: (blanks (m + 1) ++ (relaid margin false (e ++ k) ++ back)) := by
        rw [relaid_cons ⟨by decide, by simp⟩, ← hb']
        nth_rewrite 1 [hb']
        simp [hb]
      rw [Nat.succ_eq_add_one, List.cons_append, hs, List.cons_prefix_cons]
    · rw [Nat.succ_eq_add_one, hb, List.cons_append, List.cons_prefix_cons]
      simp [hc]

theorem not_return_newline_infix {e : List Char} (h : ∀ c ∈ e, c = ' ') (next : Option Char) :
    ¬ ['\r', '\n'] <:+: e ++ next.toList := by
  induction e with
  | nil => cases next <;> simp [List.infix_cons_iff]
  | cons c e ih =>
    rw [List.forall_mem_cons] at h
    rw [List.cons_append, List.infix_cons_iff, List.cons_prefix_cons]
    simp [h.1, ih h.2]

/-- A text is found where it was laid out if nothing in it is touched, and only then. -/
theorem prefix_relaid_iff {margin : Nat} (begins : Bool) (e k back : List Char) :
    e <+: relaid margin begins (e ++ k) ++ back ↔ Untouched margin begins k.head? e := by
  induction e generalizing begins with
  | nil =>
    have hc := not_return_newline_infix (List.forall_mem_nil (· = ' ')) k.head?
    simpa [Untouched, Unmoved] using hc
  | cons c e ih =>
    have hhead : (e ++ k).head? = (e ++ k.head?.toList).head? := by
      cases e <;> cases k <;> rfl
    by_cases hn : c = '\n'
    · subst hn
      rw [untouched_newline_cons, ← ih true, List.cons_append]
      exact List.cons_prefix_cons.trans (and_iff_right rfl)
    · by_cases hr : c = '\r' ∧ (e ++ k).head? = some '\n'
      · -- The break is laid out without its carriage return.
        obtain ⟨rfl, hk⟩ := hr
        obtain ⟨cs, hcs⟩ := List.head?_eq_some_iff.mp hk
        obtain ⟨cs', hcs'⟩ := List.head?_eq_some_iff.mp (hhead ▸ hk)
        have hi : ['\r', '\n'] <:+: '\r' :: e ++ k.head?.toList := by
          rw [List.cons_append, hcs']
          exact ⟨[], cs', rfl⟩
        rw [List.cons_append, hcs, relaid_return_newline, List.cons_append, List.cons_prefix_cons]
        exact iff_of_false (fun h => absurd h.1 (by decide)) fun h => h.1 hi
      · have hs : Unbroken c (e ++ k) := ⟨hn, hr⟩
        have hs' : Unbroken c (e ++ k.head?.toList) := ⟨hn, hhead ▸ hr⟩
        by_cases hb : begins = false ∨ margin = 0
        · have hm : (if begins then blanks margin else []) = [] := by
            rcases hb with rfl | rfl <;> simp [blanks]
          rw [untouched_cons hs' hb, ← ih false, List.cons_append, relaid_cons hs, hm]
          exact List.cons_prefix_cons.trans (and_iff_right rfl)
        · obtain ⟨rfl, hm⟩ : begins = true ∧ margin ≠ 0 := by simpa using hb
          have hl : relaid margin true (c :: e ++ k) ++ back =
              blanks margin ++ (relaid margin false (c :: e ++ k) ++ back) := by
            rw [List.cons_append, relaid_cons hs, relaid_cons hs]
            simp
          have hd : (c :: e).dropWhile (· = '\n') = c :: e :=
            List.dropWhile_cons_of_neg (by simpa using hn)
          rw [hl, prefix_blanks_iff hm, Untouched, Unmoved, if_pos rfl, hd, or_iff_right hm]
          exact (and_iff_right_of_imp fun h => not_return_newline_infix h k.head?).symm

end Ambient
