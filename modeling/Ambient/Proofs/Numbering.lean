import Ambient.Enum
import Ambient.Proofs.Rows

/-!
The numbers of enumeration members without a value: what they are, what each dialect writes, and
what a reader of the TypeScript text counts where nothing is written.
-/
namespace Ambient
open Writer

/-! Decimal numerals. -/

def naturalOf? (digits : List Char) : Option Nat :=
  if digits ≠ [] ∧ digits.all Char.isDigit then some (Nat.ofDigitChars 10 digits 0) else none

def integerOf? : List Char → Option Int
  | '-' :: digits => (naturalOf? digits).map fun n : Nat => -(n : Int)
  | digits => (naturalOf? digits).map Int.ofNat

theorem naturalOf?_toDigits (n : Nat) : naturalOf? (Nat.toDigits 10 n) = some n := by
  have h : (Nat.toDigits 10 n).all Char.isDigit = true :=
    List.all_eq_true.mpr fun c hc => Nat.isDigit_of_mem_toDigits (by decide) (by decide) hc
  simp [naturalOf?, h]

theorem toDigits_ne_minus_cons (n : Nat) (digits : List Char) :
    Nat.toDigits 10 n ≠ '-' :: digits := by
  intro h
  have hc : '-'.isDigit = true :=
    Nat.isDigit_of_mem_toDigits (b := 10) (n := n) (by decide) (by decide) (by simp [h])
  exact absurd hc (by decide)

/-- The numeral that is written for an integer denotes it. -/
theorem integerOf?_toString (n : Int) : integerOf? (toString n).toList = some n := by
  rw [Int.toString_eq_repr, Int.repr_eq_if]
  split
  next hn =>
    rw [Nat.toList_repr]
    unfold integerOf?
    split
    next digits h => exact absurd h (toDigits_ne_minus_cons _ _)
    next h =>
      rw [naturalOf?_toDigits, Option.map_some, Option.some.injEq]
      exact Int.toNat_of_nonneg hn
  next hn =>
    have hd : ("-" ++ (-n).toNat.repr).toList = '-' :: Nat.toDigits 10 (-n).toNat := by simp
    rw [hd, integerOf?, naturalOf?_toDigits, Option.map_some, Option.some.injEq]
    omega

/-! The number of a member, read off the members before it. -/

namespace EnumMember

def int? (m : EnumMember) : Option Int := (m.value.bind Value.int?).map Int64.toInt

end EnumMember

/--
The number of a member without a value: one more than the last integer before it, and one more for
each member without a value since; without such an integer the count starts at zero.
-/
def ordinal (before : List EnumMember) : Int :=
  let since := before.reverse.takeWhile fun m => m.int?.isNone
  let unnumbered := since.countP fun m => m.value.isNone
  match before.reverse.findSome? EnumMember.int? with
  | some n => n + 1 + unnumbered
  | none => unnumbered

theorem ordinal_snoc_int {m : EnumMember} {n : Int64} (before : List EnumMember)
    (h : m.value = some (.int n)) : ordinal (before ++ [m]) = n.toInt + 1 := by
  have hm : m.int? = some n.toInt := by simp [EnumMember.int?, h, Value.int?]
  simp [ordinal, hm]

theorem ordinal_snoc_other {m : EnumMember} {v : Value} (before : List EnumMember)
    (h : m.value = some v) (hv : v.int? = none) : ordinal (before ++ [m]) = ordinal before := by
  have hm : m.int? = none := by simp [EnumMember.int?, h, hv]
  simp [ordinal, hm, h]

theorem ordinal_snoc_none {m : EnumMember} (before : List EnumMember) (h : m.value = none) :
    ordinal (before ++ [m]) = ordinal before + 1 := by
  have hm : m.int? = none := by simp [EnumMember.int?, h]
  simp only [ordinal, List.reverse_append, List.reverse_singleton, List.singleton_append,
    List.takeWhile_cons, hm, Option.isNone_none, ↓reduceIte, List.countP_cons, h,
    List.findSome?_cons_of_isNone]
  split <;> omega

/-! The state of the count. -/

theorem successor_toInt (n : Int64) :
    (Enum.successor n).toInt = min (n.toInt + 1) Int64.maxValue.toInt := by
  unfold Enum.successor
  split
  next h => rw [h]; decide
  next h =>
    have hle := n.toInt_le
    have hge := n.le_toInt
    have hne : n.toInt ≠ Int64.maxValue.toInt := fun he => h (Int64.toInt_inj.mp he)
    have hmax : Int64.maxValue.toInt = 9223372036854775807 := rfl
    have hone : (1 : Int64).toInt = 1 := rfl
    rw [Int64.toInt_add, hone, Int.bmod_eq_of_le (by omega) (by omega)]
    omega

namespace Enum.Count

/-- The count stands where these members lead it, as far as a word goes. -/
def Follows (c : Count) (before : List EnumMember) : Prop :=
  c.next.toInt = min (ordinal before) Int64.maxValue.toInt

theorem follows_start : start.Follows [] := by
  unfold Follows
  decide

theorem Follows.after {c : Count} {before : List EnumMember} (h : c.Follows before)
    (m : EnumMember) : (c.after m).Follows (before ++ [m]) := by
  unfold Follows at h ⊢
  unfold Count.after
  split
  next n hm => rw [ordinal_snoc_int before hm, successor_toInt]
  next v hv hm =>
    rw [ordinal_snoc_other before hm, h]
    cases v <;> simp_all [Value.int?]
  next hm =>
    rw [ordinal_snoc_none before hm, successor_toInt, h]
    omega

/-- The text behind the equals sign of a member, if it has one. -/
def initializer (c : Count) (d : Dialect) (m : EnumMember) : Option String :=
  match d, m.value with
  | _, some v => some (v.literal d)
  | .lua, none => some (toString c.next.toInt)
  | .typeScript, none => if c.agreed then none else some (toString c.next.toInt)

def initializers (c : Count) (d : Dialect) : List EnumMember → List (Option String)
  | [] => []
  | m :: ms => c.initializer d m :: (c.after m).initializers d ms

theorem length_initializers (c : Count) (d : Dialect) (ms : List EnumMember) :
    (c.initializers d ms).length = ms.length := by
  induction ms generalizing c with
  | nil => rfl
  | cons m ms ih => simp [initializers, ih]

end Enum.Count

namespace Enum

def initializers (e : Enum) (d : Dialect) : List (Option String) :=
  Count.start.initializers d e.members

/-! The lines of a rendering. -/

def assigned : Option String → String
  | some s => " = " ++ s
  | none => ""

/-- What a member with this initializer shows from its key on; a value may break the line. -/
def entryLine (d : Dialect) (m : EnumMember) (init : Option String) : String :=
  key d m.name ++ assigned init ++ ","

/-- The lines of a member between the braces: the comment with its description, and the one with its key. -/
def entryLines (d : Dialect) (m : EnumMember) (line : String) : List String :=
  (m.desc.elim [] (Doc.comment d) ++ [line]).map (spaces d.indent ++ ·)

/-- The lines above the name: the comment with the description, and in Lua the mark of an enumeration. -/
def leadLines (e : Enum) (d : Dialect) : List String :=
  (if e.desc.isEmpty then [] else Doc.comment d e.desc) ++
    match d with
    | .lua => ["---@enum " ++ e.name]
    | .typeScript => []

/-- The lines of an enumeration whose members show these lines. -/
def linesWith (e : Enum) (d : Dialect) (scope : Scope) (lines : List String) : List String :=
  e.leadLines d ++ match e.members with
    | [] => [e.header d scope ++ "\x7d"]
    | members =>
      e.header d scope :: (members.zip lines).flatMap (fun p => entryLines d p.1 p.2) ++ ["\x7d"]

/-- The text of an enumeration whose members show these lines. -/
def layOut (e : Enum) (d : Dialect) (scope : Scope) (lines : List String) : String :=
  "\n".intercalate (e.linesWith d scope lines)

/-- The text of an enumeration in which the members have these initializers. -/
def textWith (e : Enum) (d : Dialect) (scope : Scope) (inits : List (Option String)) : String :=
  e.layOut d scope ((e.members.zip inits).map fun p => entryLine d p.1 p.2)

namespace Count

theorem assignment_eq (c : Count) (d : Dialect) (m : EnumMember) :
    c.assignment d m = assigned (c.initializer d m) := by
  unfold assignment initializer
  cases m.value <;> cases d <;> simp only [assigned]
  cases c.agreed <;> rfl

theorem rows_entry (c : Count) (d : Dialect) (m : EnumMember) (ss : List Step) :
    rowsFrom d.indent 1 (c.entry d m ++ ss) =
      (entryLines d m (entryLine d m (c.initializer d m))).map String.toList ++
        rowsFrom d.indent 1 ss := by
  unfold entry entryLines entryLine
  rw [assignment_eq]
  cases m.desc with
  | none => simp [docSteps, rowsFrom, Step.rows, Step.leveled, toList_spaces]
  | some text => simp [docSteps, rowsFrom, Step.rows, Step.leveled, docRows, toList_spaces]

/-- The members write their lines one after the other, each with its own initializer. -/
theorem rows_entries (c : Count) (d : Dialect) (ms : List EnumMember) (ss : List Step) :
    rowsFrom d.indent 1 (c.entries d ms ++ ss) =
      ((ms.zip ((ms.zip (c.initializers d ms)).map fun p => entryLine d p.1 p.2)).flatMap
        fun p => entryLines d p.1 p.2).map String.toList ++ rowsFrom d.indent 1 ss := by
  induction ms generalizing c with
  | nil => rfl
  | cons m ms ih =>
    rw [entries, List.append_assoc, rows_entry, ih, initializers, List.zip_cons_cons, List.map_cons,
      List.zip_cons_cons, List.flatMap_cons, List.map_append, List.append_assoc]

end Count

theorem rows_lead (e : Enum) (d : Dialect) (ss : List Step) :
    rowsFrom d.indent 0 (.docIf d e.desc :: e.annotation d ++ ss) =
      (e.leadLines d).map String.toList ++ rowsFrom d.indent 0 ss := by
  by_cases hd : e.desc.isEmpty = true <;> cases d <;>
    simp [hd, annotation, leadLines, rowsFrom, Step.rows, Step.leveled, docRows, blanks]

theorem linesWith_ne_nil (e : Enum) (d : Dialect) (scope : Scope) (lines : List String) :
    e.linesWith d scope lines ≠ [] := by
  unfold linesWith
  split <;> simp

/-- The steps of an enumeration write its lines, with its members' own initializers in them. -/
theorem rows_steps (e : Enum) (d : Dialect) (scope : Scope) :
    rowsFrom d.indent 0 (e.steps d scope) =
      (e.linesWith d scope
        ((e.members.zip (e.initializers d)).map fun p => entryLine d p.1 p.2)).map String.toList := by
  rw [steps, rows_lead, linesWith, List.map_append, body, initializers]
  cases e.members with
  | nil => simp [rowsFrom, Step.rows, blanks]
  | cons m ms =>
    have hentries := Count.start.rows_entries d (m :: ms) [.dedent, .line "\x7d"]
    simp only [List.cons_append, List.nil_append, rowsFrom, Step.leveled, Step.rows,
      blanks] at hentries ⊢
    rw [hentries]
    simp

theorem render_eq_textWith (e : Enum) (d : Dialect) (scope : Scope) :
    e.render d scope = e.textWith d scope (e.initializers d) :=
  render_eq_intercalate (e.rows_steps d scope) (e.linesWith_ne_nil d scope _)

/-! Reading the numbers. -/

/--
The integers of members with these initializers as TypeScript counts them: a member without an
initializer has the integer after that of the member before it, or `next` if it is the first.
-/
def readNumbers (next : Option Int) : List (Option String) → List (Option Int)
  | [] => []
  | init :: inits =>
    let number := match init with
      | some s => integerOf? s.toList
      | none => next
    number :: readNumbers (number.map (· + 1)) inits

/-- The numbers of all members without a value fit a word. -/
def NumbersFit (e : Enum) : Prop :=
  ∀ i (hi : i < e.members.length), e.members[i].value = none →
    ordinal (e.members.take i) ≤ Int64.maxValue.toInt

namespace Count

/-- The reader of the text expects the number of the next member wherever none is written. -/
def Agrees (c : Count) (before : List EnumMember) (next : Option Int) : Prop :=
  c.agreed = true → next = some (ordinal before)

theorem initializer_lua_none {c : Count} {before : List EnumMember} {m : EnumMember}
    (h : c.Follows before) (hm : m.value = none) (hfit : ordinal before ≤ Int64.maxValue.toInt) :
    c.initializer .lua m = some (toString (ordinal before)) := by
  have hn : c.next.toInt = ordinal before := by
    unfold Follows at h
    omega
  simp only [initializer, hm, hn]

/-- A member without a value is read with its number, whether that is written or not. -/
theorem read_initializer_none {c : Count} {before : List EnumMember} {m : EnumMember}
    {next : Option Int} (h : c.Follows before) (ha : c.Agrees before next) (hm : m.value = none)
    (hfit : ordinal before ≤ Int64.maxValue.toInt) (inits : List (Option String)) :
    readNumbers next (c.initializer .typeScript m :: inits) =
      some (ordinal before) :: readNumbers (some (ordinal before + 1)) inits := by
  have hn : c.next.toInt = ordinal before := by
    unfold Follows at h
    omega
  cases hc : c.agreed with
  | true => simp [initializer, hm, hc, readNumbers, ha hc]
  | false =>
    simp only [initializer, hm, hc, hn, Bool.false_eq_true, ↓reduceIte, readNumbers,
      integerOf?_toString, Option.map_some]

theorem initializer_some {c : Count} {m : EnumMember} {v : Value} (d : Dialect)
    (h : m.value = some v) : c.initializer d m = some (v.literal d) := by
  cases d <;> simp only [initializer, h]

theorem read_initializer_int {c : Count} {m : EnumMember} {n : Int64} (next : Option Int)
    (hm : m.value = some (.int n)) (inits : List (Option String)) :
    readNumbers next (c.initializer .typeScript m :: inits) =
      some n.toInt :: readNumbers (some (n.toInt + 1)) inits := by
  simp only [initializer_some _ hm, Value.literal, readNumbers, integerOf?_toString,
    Option.map_some]

/-- One member keeps the two counts in step. -/
theorem read_step {c : Count} {before : List EnumMember} {next : Option Int} (m : EnumMember)
    (h : c.Follows before) (ha : c.Agrees before next)
    (hfit : m.value = none → ordinal before ≤ Int64.maxValue.toInt) :
    ∃ number next', (c.after m).Agrees (before ++ [m]) next' ∧
      (m.value = none → number = some (ordinal before)) ∧
      ∀ inits, readNumbers next (c.initializer .typeScript m :: inits) =
        number :: readNumbers next' inits := by
  cases hm : m.value with
  | none =>
    refine ⟨_, _, ?_, fun _ => rfl, read_initializer_none h ha hm (hfit hm)⟩
    intro _
    rw [ordinal_snoc_none before hm]
  | some v =>
    cases hv : v.int? with
    | none =>
      let number := integerOf? (v.literal .typeScript).toList
      refine ⟨number, number.map (· + 1), ?_, nofun, fun inits => ?_⟩
      · intro hc
        unfold after at hc
        cases v <;> simp_all [Value.int?]
      · simp only [initializer_some _ hm, readNumbers, number]
    | some n =>
      obtain rfl : v = .int n := by cases v <;> simp_all [Value.int?]
      refine ⟨_, _, ?_, nofun, read_initializer_int next hm⟩
      intro _
      rw [ordinal_snoc_int before hm]

theorem initializers_lua {c : Count} {before ms : List EnumMember} (h : c.Follows before)
    {i : Nat} {m : EnumMember} (hi : ms[i]? = some m) (hm : m.value = none)
    (hfit : ordinal (before ++ ms.take i) ≤ Int64.maxValue.toInt) :
    (c.initializers .lua ms)[i]? = some (some (toString (ordinal (before ++ ms.take i)))) := by
  induction ms generalizing c before i with
  | nil => simp at hi
  | cons k ms ih =>
    cases i with
    | zero =>
      obtain rfl : k = m := by simpa using hi
      rw [List.take_zero, List.append_nil] at hfit ⊢
      exact congrArg some (initializer_lua_none h hm hfit)
    | succ i =>
      rw [List.take_succ_cons, List.append_cons] at hfit ⊢
      exact ih (h.after k) (by simpa using hi) hfit

theorem initializers_some {c : Count} {ms : List EnumMember} (d : Dialect) {i : Nat}
    {m : EnumMember} {v : Value} (hi : ms[i]? = some m) (hm : m.value = some v) :
    (c.initializers d ms)[i]? = some (some (v.literal d)) := by
  induction ms generalizing c i with
  | nil => simp at hi
  | cons k ms ih =>
    cases i with
    | zero =>
      obtain rfl : k = m := by simpa using hi
      exact congrArg some (initializer_some d hm)
    | succ i => exact ih (by simpa using hi)

/-- The two counts stay in step over all members. -/
theorem readNumbers_initializers {c : Count} {before ms : List EnumMember} {next : Option Int}
    (h : c.Follows before) (ha : c.Agrees before next)
    (hfit : ∀ i (hi : i < ms.length), ms[i].value = none →
      ordinal (before ++ ms.take i) ≤ Int64.maxValue.toInt)
    {i : Nat} {m : EnumMember} (hi : ms[i]? = some m) (hm : m.value = none) :
    (readNumbers next (c.initializers .typeScript ms))[i]? =
      some (some (ordinal (before ++ ms.take i))) := by
  induction ms generalizing c before next i with
  | nil => simp at hi
  | cons k ms ih =>
    have hrest : ∀ i (hi : i < ms.length), ms[i].value = none →
        ordinal (before ++ [k] ++ ms.take i) ≤ Int64.maxValue.toInt := by
      intro i hi hv
      have hf := hfit (i + 1) (Nat.succ_lt_succ hi) hv
      rwa [List.take_succ_cons, List.append_cons] at hf
    have hk : k.value = none → ordinal before ≤ Int64.maxValue.toInt := by
      intro hv
      have hf := hfit 0 (Nat.succ_pos _) hv
      rwa [List.take_zero, List.append_nil] at hf
    obtain ⟨number, next', ha', hnumber, hread⟩ := read_step k h ha hk
    rw [initializers, hread]
    cases i with
    | zero =>
      obtain rfl : k = m := by simpa using hi
      rw [hnumber hm, List.take_zero, List.append_nil, List.getElem?_cons_zero]
    | succ i =>
      rw [List.take_succ_cons, List.append_cons, List.getElem?_cons_succ]
      exact ih (h.after k) ha' hrest (by simpa using hi)

/-- Behind a value that is no integer nothing is left to the reader's count. -/
theorem initializer_after_other {c : Count} {k m : EnumMember} {v : Value} (hk : k.value = some v)
    (hv : v.int? = none) : ((c.after k).initializer .typeScript m).isSome := by
  have hc : (c.after k).agreed = false := by
    unfold after
    cases v <;> simp_all [Value.int?]
  cases hm : m.value <;> simp [initializer, hm, hc]

theorem initializers_after_other {c : Count} {ms : List EnumMember} {i : Nat} {k m : EnumMember}
    {v : Value} (hi : ms[i]? = some k) (hi' : ms[i + 1]? = some m) (hk : k.value = some v)
    (hv : v.int? = none) :
    ∃ s, (c.initializers .typeScript ms)[i + 1]? = some (some s) := by
  induction ms generalizing c i with
  | nil => simp at hi
  | cons a ms ih =>
    cases i with
    | succ i => exact ih (by simpa using hi) (by simpa using hi')
    | zero =>
      obtain rfl : a = k := by simpa using hi
      cases ms with
      | nil => simp at hi'
      | cons b ms =>
        obtain rfl : b = m := by simpa using hi'
        obtain ⟨s, hs⟩ := Option.isSome_iff_exists.mp (initializer_after_other (c := c) hk hv)
        exact ⟨s, congrArg some hs⟩

end Count

/-- Lua writes the numbers, and TypeScript lets a reader count the same ones. -/
structure NumbersAgree (e : Enum) (scope : Scope) : Prop where
  /-- There is an initializer, or none, for each member. -/
  length : ∀ d, (e.initializers d).length = e.members.length
  text : ∀ d, e.render d scope = e.textWith d scope (e.initializers d)
  lua : ∀ (i : Nat) (m : EnumMember), e.members[i]? = some m → m.value = none →
    (e.initializers .lua)[i]? = some (some (toString (ordinal (e.members.take i))))
  typeScript : ∀ (i : Nat) (m : EnumMember), e.members[i]? = some m → m.value = none →
    (readNumbers (some 0) (e.initializers .typeScript))[i]? =
      some (some (ordinal (e.members.take i)))
  value : ∀ d (i : Nat) (m : EnumMember) (v : Value), e.members[i]? = some m → m.value = some v →
    (e.initializers d)[i]? = some (some (v.literal d))
  written : ∀ (i : Nat) (k m : EnumMember) (v : Value), e.members[i]? = some k →
    e.members[i + 1]? = some m → k.value = some v → v.int? = none →
    ∃ s, (e.initializers .typeScript)[i + 1]? = some (some s)

/-- As long as the numbers fit a word, the dialects number the members alike. -/
theorem dialects_number_alike (e : Enum) (scope : Scope) (hfit : e.NumbersFit) :
    e.NumbersAgree scope where
  length d := Count.length_initializers _ d _
  text d := e.render_eq_textWith d scope
  lua i m hi hm := by
    obtain ⟨hlt, he⟩ := List.getElem?_eq_some_iff.mp hi
    exact Count.initializers_lua Count.follows_start hi hm (hfit i hlt (he ▸ hm))
  typeScript i m hi hm :=
    Count.readNumbers_initializers Count.follows_start (fun _ => rfl) hfit hi hm
  value d i m v hi hm := Count.initializers_some d hi hm
  written i k m v hi hi' hk hv := Count.initializers_after_other hi hi' hk hv

/-- An enumeration with values of many kinds before members that have none. -/
def mixed : Enum where
  name := "Mixed"
  members := [{ name := "a" }, { name := "b", value := some (.int 10) }, { name := "c" },
    { name := "d", value := some (.string "x") }, { name := "e" },
    { name := "f", value := some (.raw "1 << 2") }, { name := "g", value := some .nil },
    { name := "h" }, { name := "i" }]

theorem mixed_numbers_alike :
    mixed.NumbersFit ∧ mixed.NumbersAgree .topLevel ∧
      mixed.initializers .typeScript = [none, some "10", none, some "\"x\"", some "12",
        some "1 << 2", some "null", some "13", none] ∧
      readNumbers (some 0) (mixed.initializers .typeScript) =
        [some 0, some 10, some 11, none, some 12, none, none, some 13, some 14] := by
  have hfit : mixed.NumbersFit := by
    unfold NumbersFit
    decide
  exact ⟨hfit, dialects_number_alike mixed .topLevel hfit, by decide +kernel, by decide +kernel⟩

end Enum
end Ambient
