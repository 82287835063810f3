import Ambient.Proofs.Numbering

/-!
The numbers of one run of an enumeration: the members from the start, or behind an integer, up to the
next integer. Lua is shown one number after the other for those without a value, and the largest word
for all that would be past it.
-/
namespace Ambient.Enum

/-- The largest number that a member can have. -/
def topNumber : Int := Int64.maxValue.toInt

/-- Members that go on with the count: none of them is an integer itself. -/
def GoesOn (run : List EnumMember) : Prop := ∀ m ∈ run, m.int? = none

/-- A run begins behind these members: there are none, or the last one is an integer. -/
inductive Opens : List EnumMember → Option Int → Prop
  | start : Opens [] none
  | integer (before : List EnumMember) {k : EnumMember} {n : Int64} (h : k.value = some (.int n)) :
      Opens (before ++ [k]) (some n.toInt)

theorem Opens.le_topNumber {before : List EnumMember} {n : Int} (h : Opens before (some n)) :
    n ≤ topNumber := by
  cases h with
  | @integer before k n h => exact n.toInt_le

/-- The number that the first member without a value would have. -/
def firstNumber : Option Int → Int
  | some n => n + 1
  | none => 0

/-- So many numbers from the first one on, of which none is past the largest. -/
def countFrom (first : Int) (count : Nat) : List Int :=
  (List.range count).map fun k : Nat => min (first + k) topNumber

theorem countFrom_succ (first : Int) (count : Nat) :
    countFrom first (count + 1) = min first topNumber :: countFrom (first + 1) count := by
  rw [countFrom, List.range_succ_eq_map, List.map_cons, List.map_map]
  refine List.cons_eq_cons.mpr ⟨by simp, List.map_congr_left fun k _ => ?_⟩
  simp only [Function.comp_apply]
  omega

/-! Reading the numbers. -/

/-- The integers that stand behind the members without a value. -/
def numbersShown (ms : List EnumMember) (inits : List (Option String)) : List (Option Int) :=
  ((ms.zip inits).filter fun p => p.1.value.isNone).map fun p => p.2.bind fun s => integerOf? s.toList

def unvalued (ms : List EnumMember) : Nat := ms.countP fun m => m.value.isNone

namespace Count

/-- The count after some members. -/
def afterAll (c : Count) (ms : List EnumMember) : Count := ms.foldl after c

theorem initializers_append (c : Count) (d : Dialect) (ms ns : List EnumMember) :
    c.initializers d (ms ++ ns) = c.initializers d ms ++ (c.afterAll ms).initializers d ns := by
  induction ms generalizing c with
  | nil => rfl
  | cons m ms ih =>
    rw [List.cons_append, initializers, initializers, ih, List.cons_append]
    rfl

/-- Where a run begins, the count stands at its first number, or at the largest one. -/
theorem next_of_opens {before : List EnumMember} {opening : Option Int} (h : Opens before opening) :
    (start.afterAll before).next.toInt = min (firstNumber opening) topNumber := by
  cases h with
  | start => decide
  | @integer before k n h =>
    have hafter : start.afterAll (before ++ [k]) = ⟨successor n, true⟩ := by
      rw [afterAll, List.foldl_append, List.foldl_cons, List.foldl_nil, after, h]
    rw [hafter]
    exact successor_toInt n

/-- One step of the count for each member without a value, and none for the others. -/
theorem numbersShown_run {c : Count} {first : Int} (hc : c.next.toInt = min first topNumber)
    {run : List EnumMember} (h : GoesOn run) (rest : List EnumMember) :
    numbersShown run (c.initializers .lua (run ++ rest)) =
      (countFrom first (unvalued run)).map some := by
  induction run generalizing c first with
  | nil => rfl
  | cons m run ih =>
    obtain ⟨hm, hrun⟩ := List.forall_mem_cons.mp h
    rw [List.cons_append, initializers]
    cases hv : m.value with
    | none =>
      have hnext : (c.after m).next.toInt = min (first + 1) topNumber := by
        have hs : (successor c.next).toInt = min (c.next.toInt + 1) topNumber := successor_toInt _
        simp only [after, hv, hs, hc]
        omega
      have hinit : c.initializer .lua m = some (toString (min first topNumber)) := by
        simp only [initializer, hv, hc]
      have hcount : unvalued (m :: run) = unvalued run + 1 := by simp [unvalued, hv]
      rw [hcount, countFrom_succ, List.map_cons, ← ih hnext hrun, hinit]
      simp only [numbersShown, List.zip_cons_cons, List.filter_cons, hv, Option.isNone_none,
        ↓reduceIte, List.map_cons, Option.bind_some, integerOf?_toString]
    | some v =>
      have hnext : (c.after m).next.toInt = min first topNumber := by
        rw [← hc]
        cases v <;> simp_all [after, EnumMember.int?, Value.int?]
      have hcount : unvalued (m :: run) = unvalued run := by simp [unvalued, hv]
      rw [hcount, ← ih hnext hrun]
      simp only [numbersShown, List.zip_cons_cons, List.filter_cons, hv, Option.isNone_some,
        Bool.false_eq_true, ↓reduceIte]

end Count

/-! Counting up. -/

/-- Numbers that count up by one behind an integer, and stay at the largest number once there. -/
structure CountsUp (opening : Option Int) (numbers : List Int) : Prop where
  first : ∀ n ∈ numbers.head?, n = min (firstNumber opening) topNumber
  next : ∀ (i : Nat) (a b : Int), numbers[i]? = some a → numbers[i + 1]? = some b →
    b = min (a + 1) topNumber
  /-- Two numbers of a run, its own integer among them, are equal only at the top. -/
  apart : (opening.toList ++ numbers).Pairwise fun a b => a < b ∨ a = topNumber ∧ b = topNumber

theorem getElem?_countFrom {first : Int} {count i : Nat} {n : Int}
    (h : (countFrom first count)[i]? = some n) : n = min (first + i) topNumber := by
  obtain ⟨hi, rfl⟩ := List.getElem?_eq_some_iff.mp h
  simp [countFrom]

theorem countsUp_countFrom {opening : Option Int} (h : ∀ n ∈ opening, n ≤ topNumber) (count : Nat) :
    CountsUp opening (countFrom (firstNumber opening) count) where
  first n hn := by
    rw [Option.mem_def, List.head?_eq_getElem?] at hn
    simpa using getElem?_countFrom hn
  next i a b ha hb := by
    rw [getElem?_countFrom ha, getElem?_countFrom hb]
    omega
  apart := by
    have hrun : (countFrom (firstNumber opening) count).Pairwise
        fun a b => a < b ∨ a = topNumber ∧ b = topNumber := by
      refine List.pairwise_map.mpr (List.pairwise_lt_range.imp fun {i j} hij => ?_)
      omega
    cases opening with
    | none => exact hrun
    | some n =>
      refine List.pairwise_cons.mpr ⟨fun b hb => ?_, hrun⟩
      have hn := h n rfl
      obtain ⟨k, -, rfl⟩ := List.mem_map.mp hb
      simp only [firstNumber]
      omega

/--
In each run of an enumeration the Lua text shows the members without a value one number after the
other: the first is one more than the integer that opens the run, or zero at the start, and each next
one is one more. At the largest word the count stays, and only there two members share a number.
-/
theorem runs_count_up (e : Enum) (scope : Scope) {before run rest : List EnumMember}
    {opening : Option Int} (hm : e.members = before ++ run ++ rest) (ho : Opens before opening)
    (hr : GoesOn run) :
    e.render .lua scope = e.textWith .lua scope (e.initializers .lua) ∧
      ∃ numbers, numbersShown run ((e.initializers .lua).drop before.length) = numbers.map some ∧
        numbers = countFrom (firstNumber opening) (unvalued run) ∧ CountsUp opening numbers := by
  have hdrop : (e.initializers .lua).drop before.length =
      (Count.start.afterAll before).initializers .lua (run ++ rest) := by
    rw [initializers, hm, List.append_assoc, Count.initializers_append,
      List.drop_left' (Count.length_initializers _ _ _)]
  have hbound : ∀ n ∈ opening, n ≤ topNumber := by
    rintro n hn
    obtain rfl := Option.mem_def.mp hn
    exact ho.le_topNumber
  refine ⟨e.render_eq_textWith .lua scope, _, ?_, rfl, countsUp_countFrom hbound _⟩
  rw [hdrop]
  exact Count.numbersShown_run (Count.next_of_opens ho) hr rest

/-! A run that begins two numbers below the largest, and one that begins at the largest. -/

def nearTop : Enum where
  name := "Near"
  members := [{ name := "a", value := some (.int 9223372036854775805) }, { name := "b" },
    { name := "c", value := some (.string "x") }, { name := "d" }, { name := "e" },
    { name := "f", value := some (.int 4) }]

theorem runs_count_up_nearTop :
    nearTop.members = nearTop.members.take 1 ++ (nearTop.members.drop 1).take 4 ++
        nearTop.members.drop 5 ∧
      Opens (nearTop.members.take 1) (some 9223372036854775805) ∧
      GoesOn ((nearTop.members.drop 1).take 4) ∧
      ∃ numbers, CountsUp (some 9223372036854775805) numbers ∧
        numbers = [9223372036854775806, 9223372036854775807, 9223372036854775807] := by
  have hm : nearTop.members = nearTop.members.take 1 ++ (nearTop.members.drop 1).take 4 ++
      nearTop.members.drop 5 := rfl
  have hk : EnumMember.value { name := "a", value := some (.int 9223372036854775805) } =
      some (.int 9223372036854775805) := rfl
  have ho : Opens (nearTop.members.take 1) (some 9223372036854775805) := .integer [] hk
  have hr : GoesOn ((nearTop.members.drop 1).take 4) := by
    unfold GoesOn
    decide
  obtain ⟨-, numbers, -, hn, hc⟩ := runs_count_up nearTop .topLevel hm ho hr
  exact ⟨hm, ho, hr, numbers, hc, hn.trans (by decide)⟩

def atTop : Enum where
  name := "Top"
  members := [{ name := "A", value := some (.int Int64.maxValue) }, { name := "B" }, { name := "C" }]

/-- Behind the largest word all members have its number. -/
theorem atTop_shares_numbers :
    Opens (atTop.members.take 1) (some topNumber) ∧ GoesOn (atTop.members.drop 1) ∧
      numbersShown (atTop.members.drop 1) ((atTop.initializers .lua).drop 1) =
        [some topNumber, some topNumber] ∧
      atTop.render .lua .topLevel = "---@enum Top\nTop = \x7b\n    A = 9223372036854775807,\n" ++
        "    B = 9223372036854775807,\n    C = 9223372036854775807,\n\x7d" := by
  refine ⟨.integer [] rfl, ?_, by decide +kernel, by decide +kernel⟩
  unfold GoesOn
  decide

end Ambient.Enum
