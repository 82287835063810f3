import Ambient.Source
import Mathlib.Data.List.TakeWhile

/-!
What the search for names finds in a text: the places where the quoted name is the value of a `name`
key, each of them once and from the first to the last.
-/
namespace Ambient.Source
open Text

/-! Keys. -/

/--
A text that ends in the key `name` and the sign between it and a value. A quote may close the key,
and no longer key may end in the word.
-/
inductive EndsInKey : List Char → Prop
  | intro (before quote gap : List Char) (sign : Char) (gap' : List Char)
      (whole : ∀ c ∈ before.getLast?, isKeyPart c = false) (closing : quote = [] ∨ quote = ['"'])
      (blank : ∀ c ∈ gap, isBlank c) (sets : sign = '=' ∨ sign = ':')
      (blank' : ∀ c ∈ gap', isBlank c) :
      EndsInKey (before ++ "name".toList ++ quote ++ gap ++ sign :: gap')

theorem dropWhile_blanks {gap : List Char} (h : ∀ c ∈ gap, isBlank c) {c : Char}
    (hc : isBlank c = false) (s : List Char) : (gap ++ c :: s).dropWhile isBlank = c :: s := by
  rw [List.dropWhile_append_of_pos h, List.dropWhile_cons_of_neg (by simp [hc])]

/-- A text is the blanks it begins with and what is left without them. -/
theorem exists_blanks (s : List Char) :
    ∃ gap, s = gap ++ s.dropWhile isBlank ∧ ∀ c ∈ gap, isBlank c :=
  ⟨s.takeWhile isBlank, List.takeWhile_append_dropWhile.symm, fun _ h => List.mem_takeWhile_imp h⟩

theorem endsInName_iff {s : List Char} :
    endsInName s = true ↔
      ∃ before, s = 'e' :: 'm' :: 'a' :: 'n' :: before ∧ ∀ c ∈ before.head?, isKeyPart c = false := by
  fun_cases endsInName s with
  | case1 => simp
  | case2 c rest => simp
  | case3 s hne =>
    refine iff_of_false (by simp) ?_
    rintro ⟨before, rfl, -⟩
    exact hne before rfl

theorem exists_quote (s : List Char) :
    ∃ quote, s = quote ++ dropQuote s ∧ (quote = [] ∨ quote = ['"']) := by
  fun_cases dropQuote s with
  | case1 rest => exact ⟨['"'], rfl, .inr rfl⟩
  | case2 => exact ⟨[], rfl, .inl rfl⟩

/-- The check of the text before a value, read backwards, is for the end of a key. -/
theorem followsNameKey_reverse_iff (s : List Char) :
    followsNameKey s.reverse = true ↔ EndsInKey s := by
  constructor
  · intro h
    obtain ⟨gap', hs, hg'⟩ := exists_blanks s.reverse
    unfold followsNameKey at h
    split at h
    next sign rest hd =>
      rw [Bool.and_eq_true, Bool.or_eq_true, decide_eq_true_eq, decide_eq_true_eq,
        endsInName_iff] at h
      obtain ⟨hsign, before, hname, hb⟩ := h
      obtain ⟨gap, hr, hg⟩ := exists_blanks rest
      obtain ⟨quote, hq, hquote⟩ := exists_quote (rest.dropWhile isBlank)
      have hrev : s = before.reverse ++ "name".toList ++ quote.reverse ++ gap.reverse ++
          sign :: gap'.reverse := by
        rw [← List.reverse_reverse s, hs, hd, hr, hq, hname]
        simp
      rw [hrev]
      refine .intro _ _ _ sign _ (by simpa using hb) ?_ (by simpa using hg) hsign (by simpa using hg')
      rcases hquote with rfl | rfl
      · exact .inl rfl
      · exact .inr rfl
    next => cases h
  · rintro ⟨before, quote, gap, sign, gap', hb, hq, hg, hs, hg'⟩
    have hsign : isBlank sign = false := by rcases hs with rfl | rfl <;> decide
    have hname : endsInName ("name".toList.reverse ++ before.reverse) = true :=
      endsInName_iff.mpr ⟨before.reverse, rfl, by simpa using hb⟩
    have hgap : ∀ c ∈ gap.reverse, isBlank c := by simpa using hg
    have hkey : dropQuote ((gap.reverse ++ (quote.reverse ++ ("name".toList.reverse ++
        before.reverse))).dropWhile isBlank) = "name".toList.reverse ++ before.reverse := by
      rcases hq with rfl | rfl
      · exact congrArg dropQuote (dropWhile_blanks hgap (by decide) _)
      · exact congrArg dropQuote (dropWhile_blanks hgap (by decide) _)
    have hrev : (before ++ "name".toList ++ quote ++ gap ++ sign :: gap').reverse =
        gap'.reverse ++ sign :: (gap.reverse ++ (quote.reverse ++ ("name".toList.reverse ++
          before.reverse))) := by simp
    rw [hrev, followsNameKey, dropWhile_blanks (by simpa using hg') hsign]
    simp only [hkey, hname, Bool.and_true, Bool.or_eq_true, decide_eq_true_eq]
    exact hs

/-! The scan. -/

/-- The pattern stands in the text behind `before`, as the value of a `name` key, at this offset. -/
def EntryFrom (pattern before : List Char) (offset : Nat) (text : List Char) (o : Nat) : Prop :=
  ∃ pre post, text = pre ++ pattern ++ post ∧ EndsInKey (before.reverse ++ pre) ∧
    offset + byteSize pre = o

/-- No entry of the pattern begins inside an occurrence of it. -/
def Separate (pattern : List Char) : Prop :=
  ∀ before pre post rest, pattern ++ rest = pre ++ pattern ++ post → pre ≠ [] →
    pre.length < pattern.length → ¬ EndsInKey (before ++ pre)

section Scan

variable {pattern before cs : List Char} {c : Char} {offset o : Nat}

/-- An entry stands at the first character or behind it. -/
theorem entryFrom_cons :
    EntryFrom pattern before offset (c :: cs) o ↔
      (pattern <+: c :: cs ∧ EndsInKey before.reverse ∧ offset = o) ∨
        EntryFrom pattern (c :: before) (offset + c.utf8Size) cs o := by
  constructor
  · rintro ⟨pre, post, hcs, hk, ho⟩
    cases pre with
    | nil => exact .inl ⟨⟨post, hcs.symm⟩, by simpa using hk, ho⟩
    | cons d pre =>
      obtain ⟨rfl, hcs⟩ := List.cons.inj hcs
      refine .inr ⟨pre, post, by simpa using hcs, by simpa using hk, ?_⟩
      rw [Nat.add_assoc]
      exact ho
  · rintro (⟨⟨post, hcs⟩, hk, ho⟩ | ⟨pre, post, hcs, hk, ho⟩)
    · exact ⟨[], post, hcs.symm, by simpa using hk, ho⟩
    · refine ⟨c :: pre, post, by rw [hcs]; rfl, by simpa using hk, ?_⟩
      rw [Nat.add_assoc] at ho
      exact ho

/-- The scan finds the entries; where it still belongs to an occurrence, none begins. -/
theorem mem_entriesFrom (hne : pattern ≠ []) (hs : Separate pattern) {before text : List Char}
    {offset busy : Nat} (hb : ∀ pre post, text = pre ++ pattern ++ post → pre.length < busy →
      ¬ EndsInKey (before.reverse ++ pre)) :
    o ∈ entriesFrom pattern before offset busy text ↔ EntryFrom pattern before offset text o := by
  have hinside : ∀ before c cs, pattern <+: c :: cs → ∀ pre post, cs = pre ++ pattern ++ post →
      pre.length < pattern.length - 1 → ¬ EndsInKey ((c :: before).reverse ++ pre) := by
    rintro before c cs ⟨rest, hcs⟩ pre post rfl hl hk
    refine hs before.reverse (c :: pre) post rest hcs (by simp) ?_ (by simpa using hk)
    rw [List.length_cons]
    omega
  fun_induction entriesFrom pattern before offset busy text with
  | case1 before offset busy =>
    refine iff_of_false (by simp) ?_
    rintro ⟨pre, post, h, -⟩
    simp [hne] at h
  | case2 before offset c cs busy ih =>
    have hcs := ih fun pre post hcs hl hk => by
      subst hcs
      exact hb (c :: pre) post rfl (by simpa using hl) (by simpa using hk)
    refine hcs.trans (entryFrom_cons.trans (or_iff_right ?_)).symm
    rintro ⟨⟨post, hp⟩, hk, -⟩
    exact hb [] post hp.symm (by simp) (by simpa using hk)
  | case3 before offset c cs hp found hk ih =>
    have hp := List.isPrefixOf_iff_prefix.mp hp
    have hk := (followsNameKey_reverse_iff before.reverse).mp (by simpa using hk)
    refine (List.mem_cons.trans (or_congr ?_ (ih (hinside before c cs hp)))).trans
      entryFrom_cons.symm
    exact ⟨fun h => ⟨hp, hk, h.symm⟩, fun h => h.2.2.symm⟩
  | case4 before offset c cs hp found hk ih =>
    have hp := List.isPrefixOf_iff_prefix.mp hp
    refine (ih (hinside before c cs hp)).trans (entryFrom_cons.trans (or_iff_right ?_)).symm
    rintro ⟨-, hk', -⟩
    exact hk (by simpa using (followsNameKey_reverse_iff before.reverse).mpr hk')
  | case5 before offset c cs hp ih =>
    refine (ih fun _ _ _ hl => absurd hl (Nat.not_lt_zero _)).trans
      (entryFrom_cons.trans (or_iff_right ?_)).symm
    rintro ⟨hp', -⟩
    exact hp (List.isPrefixOf_iff_prefix.mpr hp')

theorem le_of_mem_entriesFrom {before text : List Char} {offset busy : Nat}
    (h : o ∈ entriesFrom pattern before offset busy text) : offset ≤ o := by
  fun_induction entriesFrom pattern before offset busy text with
  | case1 => simp at h
  | case2 before offset c cs busy ih => exact Nat.le_of_add_right_le (ih h)
  | case3 before offset c cs hp found hk ih =>
    rcases List.mem_cons.mp h with rfl | h
    · exact Nat.le_refl _
    · exact Nat.le_of_add_right_le (ih h)
  | case4 before offset c cs hp found hk ih => exact Nat.le_of_add_right_le (ih h)
  | case5 before offset c cs hp ih => exact Nat.le_of_add_right_le (ih h)

/-- The entries are found from the first to the last. -/
theorem pairwise_entriesFrom (before text : List Char) (offset busy : Nat) :
    (entriesFrom pattern before offset busy text).Pairwise (· < ·) := by
  fun_induction entriesFrom pattern before offset busy text with
  | case1 => exact .nil
  | case2 before offset c cs busy ih => exact ih
  | case3 before offset c cs hp found hk ih =>
    refine List.pairwise_cons.mpr ⟨fun o ho => ?_, ih⟩
    have hle := le_of_mem_entriesFrom ho
    have hpos := c.utf8Size_pos
    omega
  | case4 before offset c cs hp found hk ih => exact ih
  | case5 before offset c cs hp ih => exact ih

end Scan

/-! Names. -/

/--
A name that is written as it is in quotes, and whose last character that is not blank sets no value
apart: the quote behind it begins no entry.
-/
structure Searchable (name : String) : Prop where
  quote : '"' ∉ name.toList
  sign : (trimEnd name.toList).getLast? ≠ some '=' ∧ (trimEnd name.toList).getLast? ≠ some ':'

instance (name : String) : Decidable (Searchable name) :=
  decidable_of_iff ('"' ∉ name.toList ∧ (trimEnd name.toList).getLast? ≠ some '=' ∧
    (trimEnd name.toList).getLast? ≠ some ':') ⟨fun h => ⟨h.1, h.2⟩, fun h => ⟨h.quote, h.sign⟩⟩

/-- The name stands in quotes at this offset, as the value of a `name` key. -/
def NamedAt (source name : String) (o : Nat) : Prop :=
  ∃ before after, source.toList = before ++ '"' :: name.toList ++ '"' :: after ∧
    EndsInKey before ∧ byteSize before = o

theorem getLast?_trimEnd_of_blanks (s : List Char) {c : Char} (hc : isBlank c = false)
    {gap : List Char} (h : ∀ b ∈ gap, isBlank b) :
    (trimEnd (s ++ c :: gap)).getLast? = some c := by
  have hrev : (s ++ c :: gap).reverse = gap.reverse ++ c :: s.reverse := by simp
  rw [trimEnd, dropEndWhile, hrev, dropWhile_blanks (by simpa using h) hc]
  simp

/-- What ends with the name, from its opening quote on, does not end in a key. -/
theorem Searchable.not_endsInKey {name : String} (h : Searchable name) (before : List Char) :
    ¬ EndsInKey (before ++ '"' :: name.toList) := by
  intro hk
  generalize hs : before ++ '"' :: name.toList = s at hk
  obtain ⟨start, quote, gap, sign, gap', -, -, -, hsign, hblank⟩ := hk
  have hne : sign ≠ '"' := by rcases hsign with rfl | rfl <;> decide
  have hlast : ∀ inner, name.toList ≠ inner ++ sign :: gap' := by
    intro inner hn
    have hl := getLast?_trimEnd_of_blanks inner
      (by rcases hsign with rfl | rfl <;> decide : isBlank sign = false) hblank
    rw [← hn] at hl
    rcases hsign with rfl | rfl
    · exact h.sign.1 hl
    · exact h.sign.2 hl
  -- The sign stands before the opening quote, at it, or in the name.
  rcases List.append_eq_append_iff.mp hs with ⟨inner, -, hn⟩ | ⟨inner, -, hn⟩
  · cases inner with
    | nil => exact hne (List.cons.inj hn).1.symm
    | cons c inner => exact hlast inner (List.cons.inj hn).2
  · cases inner with
    | nil => exact hne (List.cons.inj hn).1
    | cons c inner =>
      have hq : '"' ∈ gap' := by
        rw [(List.cons.inj hn).2]
        simp
      exact absurd (hblank _ hq) (by decide)

theorem Searchable.separate {name : String} (h : Searchable name) :
    Separate ('"' :: name.toList ++ ['"']) := by
  intro before pre post rest hcs hne hl
  -- Two occurrences share a quote and nothing else.
  have hpre : pre = '"' :: name.toList := by
    obtain ⟨c, pre, rfl⟩ := List.exists_cons_of_ne_nil hne
    simp only [List.cons_append, List.append_assoc, List.cons.injEq, List.nil_append] at hcs
    obtain ⟨rfl, hcs⟩ := hcs
    rcases List.append_eq_append_iff.mp hcs with ⟨inner, rfl, -⟩ | ⟨inner, hn, hq⟩
    · simp only [List.length_cons, List.length_append, List.length_nil] at hl
      obtain rfl : inner = [] := List.eq_nil_of_length_eq_zero (by omega)
      rw [List.append_nil]
    · cases inner with
      | nil => rw [hn, List.append_nil]
      | cons d inner =>
        obtain ⟨rfl, -⟩ := List.cons.inj hq
        exact absurd (by simp [hn]) h.quote
  rw [hpre]
  exact h.not_endsInKey before

theorem mem_nameEntries {source name : String} (h : Searchable name) (o : Nat) :
    o ∈ nameEntries source name ↔ NamedAt source name o := by
  refine (mem_entriesFrom (by simp) h.separate fun _ _ _ hl => absurd hl (Nat.not_lt_zero _)).trans ?_
  simp [EntryFrom, NamedAt]

theorem pairwise_nameEntries (source name : String) :
    (nameEntries source name).Pairwise (· < ·) := pairwise_entriesFrom [] source.toList 0 0

end Ambient.Source
