import Ambient.Manifest.Decode
import Ambient.Manifest.Json
import Ambient.Manifest.Toml.Document
import Mathlib.Data.List.Basic
import Mathlib.Data.Nat.Digits.Defs

/-!
Integer numerals of the two formats, and the nodes that stand for them in documents.
-/
namespace Ambient.Manifest

/-! Digits. -/

def digit (c : Char) : Nat := (Json.hexValue? c).getD 0

def IsDigit (base : Nat) (c : Char) : Prop := ∃ d < base, Json.hexValue? c = some d

instance (base : Nat) (c : Char) : Decidable (IsDigit base c) :=
  decidable_of_iff ((Json.hexValue? c).any (· < base) = true) <| by
    simp [IsDigit, Option.any_eq_true, and_comm]

/-- The number that digits write, the last of them counting ones. -/
def numberOf (base : Nat) (ds : List Char) : Nat := Nat.ofDigits base (ds.reverse.map digit)

/-- No digit follows a leading zero. -/
def NoLeadingZero (ds : List Char) : Prop := ds.head? = some '0' → ds = ['0']

/-- A text of digits, with an underscore between some of them, and the digits alone. -/
inductive Grouped (base : Nat) : List Char → List Char → Prop
  | single {c : Char} (h : IsDigit base c) : Grouped base [c] [c]
  | cons {c : Char} {cs ds : List Char} (h : IsDigit base c) (hs : Grouped base cs ds) :
    Grouped base (c :: cs) (c :: ds)
  | gap {c : Char} {cs ds : List Char} (h : IsDigit base c) (hs : Grouped base cs ds) :
    Grouped base (c :: '_' :: cs) (c :: ds)

/-- The letters behind a leading zero that name a base. -/
def bases : List (Char × Nat) := [('x', 16), ('o', 8), ('b', 2)]

/-- The integer that a numeral denotes; JSON has no underscores, no plus, no base and no `-0`. -/
inductive Numeral : Format → List Char → Int → Prop
  | json {ds : List Char} (hne : ds ≠ []) (h : ∀ c ∈ ds, IsDigit 10 c) (hz : NoLeadingZero ds) :
    Numeral .json ds (numberOf 10 ds)
  | jsonMinus {ds : List Char} (hne : ds ≠ []) (h : ∀ c ∈ ds, IsDigit 10 c)
      (hz : NoLeadingZero ds) (h0 : numberOf 10 ds ≠ 0) :
    Numeral .json ('-' :: ds) (-numberOf 10 ds)
  | decimal {cs ds : List Char} (h : Grouped 10 cs ds) (hz : NoLeadingZero ds) :
    Numeral .toml cs (numberOf 10 ds)
  | plus {cs ds : List Char} (h : Grouped 10 cs ds) (hz : NoLeadingZero ds) :
    Numeral .toml ('+' :: cs) (numberOf 10 ds)
  | minus {cs ds : List Char} (h : Grouped 10 cs ds) (hz : NoLeadingZero ds) :
    Numeral .toml ('-' :: cs) (-numberOf 10 ds)
  | based {mark : Char} {base : Nat} {cs ds : List Char} (hm : (mark, base) ∈ bases)
      (h : Grouped base cs ds) : Numeral .toml ('0' :: mark :: cs) (numberOf base ds)

/-! Nodes. -/

/-- No word goes on here. -/
def Ends : Format → List Char → Prop
  | .toml, rest => Toml.takeWord rest = ([], rest)
  | .json, rest => ∀ c ∈ rest.head?, ¬ c.isDigit ∧ c ≠ '.' ∧ c ≠ 'e' ∧ c ≠ 'E'

/-- The value reader of the format, at whatever depth, finds this node in a text with the word in front. -/
def Stands : Format → List Char → Node → Prop
  | .toml, w, n => ∀ fuel depth rest, Ends .toml rest →
    Toml.value (fuel + 1) depth (w ++ rest) = some (.ok n, rest)
  | .json, w, n => ∀ fuel depth rest, Ends .json rest →
    (Json.value (fuel + 1) depth (w ++ rest)).1 = n

theorem Ends.nil (format : Format) : Ends format [] := by
  cases format with
  | toml => rfl
  | json => exact nofun

theorem Stands.unique {format : Format} {w : List Char} {m n : Node} (hm : Stands format w m)
    (hn : Stands format w n) : m = n := by
  cases format with
  | toml =>
    have h := (hm 0 0 [] (.nil _)).symm.trans (hn 0 0 [] (.nil _))
    simpa using h
  | json => exact (hm 0 0 [] (.nil _)).symm.trans (hn 0 0 [] (.nil _))

/-- What stands for an integer: itself if a word holds it, else a fault, or in JSON perhaps a float. -/
structure IntegerNode (format : Format) (i : Int) (n : Node) : Prop where
  word : isWordInteger i = true → n = .integer i
  wide : isWordInteger i = false → n.problem? ≠ none ∨ format = .json ∧ ∃ x, n = .float x

/-! Characters of numerals. -/

section Digits

variable {base : Nat} {c : Char} {cs ds : List Char}

/-- A digit of a base up to ten is a decimal digit. -/
theorem IsDigit.decimal (h : IsDigit base c) (hb : base ≤ 10) :
    c.isDigit = true ∧ digit c = Binary64.digitValue c ∧ Binary64.digitValue c < base := by
  obtain ⟨d, hd, hv⟩ := h
  unfold digit
  unfold Json.hexValue? at hv ⊢
  split at hv
  next hc =>
    obtain rfl := Option.some.inj hv
    exact ⟨hc, by rw [if_pos hc]; rfl, hd⟩
  next =>
    split at hv
    next =>
      obtain rfl := Option.some.inj hv
      omega
    next =>
      split at hv
      next =>
        obtain rfl := Option.some.inj hv
        omega
      next => cases hv

theorem IsDigit.isHexDigit (h : IsDigit base c) : Toml.isHexDigit c = true := by
  obtain ⟨d, -, hv⟩ := h
  rw [Toml.isHexDigit, hv, Option.isSome_some]

theorem IsDigit.ne (h : IsDigit base c) {x : Char} (hx : Json.hexValue? x = none) : c ≠ x := by
  rintro rfl
  obtain ⟨d, -, hv⟩ := h
  rw [hx] at hv
  cases hv

theorem IsDigit.isWordChar (h : IsDigit base c) : Toml.isWordChar c = true := by
  simp only [Toml.isWordChar, List.mem_cons, List.not_mem_nil, or_false, not_or, decide_eq_true_eq]
  refine ⟨?_, ?_, ?_, ?_, ?_, ?_, ?_, ?_, ?_, ?_, ?_⟩ <;> exact h.ne rfl

theorem IsDigit.toNat_bounds (h : IsDigit base c) (hb : base ≤ 10) :
    48 ≤ c.toNat ∧ c.toNat < 48 + base := by
  obtain ⟨hc, -, hlt⟩ := h.decimal hb
  have h0 : '0'.toNat = 48 := rfl
  have hlo : 48 ≤ c.toNat := by
    simp only [Char.isDigit, Bool.and_eq_true, decide_eq_true_eq] at hc
    simpa [UInt32.le_iff_toNat_le] using hc.1
  rw [Binary64.digitValue] at hlt
  omega

theorem numberOf_eq_foldl (base : Nat) (ds : List Char) :
    numberOf base ds = ds.foldl (fun n c => base * n + digit c) 0 := by
  rw [numberOf, Nat.ofDigits_eq_foldr, List.foldr_map, List.foldr_reverse]
  simp only [Nat.cast_id, add_comm]

theorem digitsValue_eq (h : ∀ c ∈ ds, IsDigit 10 c) : Binary64.digitsValue ds = numberOf 10 ds := by
  rw [numberOf_eq_foldl, Binary64.digitsValue]
  exact List.foldl_ext _ _ _ fun n c hc => by rw [((h c hc).decimal le_rfl).2.1]

/-! Underscores. -/

theorem Grouped.mem_digits (h : Grouped base cs ds) : ∀ c ∈ ds, IsDigit base c := by
  induction h with
  | single h => simpa using h
  | cons h _ ih | gap h _ ih => exact List.forall_mem_cons.mpr ⟨h, ih⟩

theorem Grouped.mem_text (h : Grouped base cs ds) : ∀ c ∈ cs, IsDigit base c ∨ c = '_' := by
  induction h with
  | single h => simp [h]
  | cons h _ ih => exact List.forall_mem_cons.mpr ⟨.inl h, ih⟩
  | gap h _ ih => exact List.forall_mem_cons.mpr ⟨.inl h, List.forall_mem_cons.mpr ⟨.inr rfl, ih⟩⟩

/-- Digits need no underscores. -/
theorem grouped_self (hne : ds ≠ []) (h : ∀ c ∈ ds, IsDigit base c) : Grouped base ds ds := by
  induction ds with
  | nil => exact absurd rfl hne
  | cons c ds ih =>
    obtain ⟨hc, hds⟩ := List.forall_mem_cons.mp h
    cases ds with
    | nil => exact .single hc
    | cons d ds => exact .cons hc (ih (List.cons_ne_nil d ds) hds)

theorem Grouped.exists_cons (h : Grouped base cs ds) :
    ∃ c cs' ds', cs = c :: cs' ∧ ds = c :: ds' ∧ IsDigit base c := by
  cases h with
  | single h | cons h | gap h => exact ⟨_, _, _, rfl, rfl, h⟩

theorem Grouped.dropUnderscores? {p : Char → Bool} (h : Grouped base cs ds)
    (hp : ∀ c, IsDigit base c → p c = true) (behind : Bool) :
    Toml.dropUnderscores? p behind cs = some ds := by
  induction h generalizing behind with
  | single h => simp [Toml.dropUnderscores?, h.ne (x := '_') rfl]
  | cons h _ ih => simp [Toml.dropUnderscores?, h.ne (x := '_') rfl, ih]
  | gap h hs ih =>
    obtain ⟨c, cs, ds, rfl, rfl, hc⟩ := hs.exists_cons
    simp [Toml.dropUnderscores?, h.ne (x := '_') rfl, hp _ h, hp _ hc, ih]

/-- The text of digits without a leading zero has none either. -/
theorem Grouped.hasLeadingZero (h : Grouped base cs ds) (hz : NoLeadingZero ds) :
    Toml.hasLeadingZero cs = false := by
  unfold Toml.hasLeadingZero
  split
  next c cs' =>
    have hd : ds = ['0'] := by
      obtain ⟨c, cs, ds, hc, rfl, -⟩ := h.exists_cons
      obtain ⟨rfl, -⟩ := List.cons.inj hc
      exact hz rfl
    subst hd
    cases h with
    | cons _ hs | gap _ hs =>
      obtain ⟨_, _, _, -, hnil, -⟩ := hs.exists_cons
      cases hnil
  next => rfl

end Digits

/-! Words of TOML. -/

namespace Toml

theorem takeWord_append {w rest : List Char} (hw : ∀ c ∈ w, isWordChar c = true)
    (hr : takeWord rest = ([], rest)) : takeWord (w ++ rest) = (w, rest) := by
  induction w with
  | nil => exact hr
  | cons c w ih =>
    obtain ⟨hc, hw⟩ := List.forall_mem_cons.mp hw
    simp [takeWord, hc, ih hw]

theorem twoDigits?_eq_some {cs rest : List Char} {n : Nat} (h : twoDigits? cs = some (n, rest)) :
    ∃ a b, cs = a :: b :: rest := by
  unfold twoDigits? at h
  split at h
  next a b cs =>
    split at h
    next =>
      obtain ⟨-, rfl⟩ := Prod.mk.inj (Option.some.inj h)
      exact ⟨a, b, rfl⟩
    next => cases h
  next => cases h

theorem skipOne_eq_some {allowed cs rest : List Char} (h : skipOne allowed cs = some rest) :
    ∃ c ∈ allowed, cs = c :: rest := by
  unfold skipOne at h
  split at h
  next c cs =>
    split at h
    next hc =>
      obtain rfl := Option.some.inj h
      exact ⟨c, hc, rfl⟩
    next => cases h
  next => cases h

theorem mem_tail_of_date? {cs rest : List Char} (h : date? cs = some rest) : '-' ∈ cs.tail := by
  unfold date? at h
  obtain ⟨⟨century, cs₁⟩, h₁, h⟩ := Option.bind_eq_some_iff.mp h
  obtain ⟨⟨year, cs₂⟩, h₂, h⟩ := Option.bind_eq_some_iff.mp h
  obtain ⟨cs₃, h₃, h⟩ := Option.bind_eq_some_iff.mp h
  obtain ⟨a, b, rfl⟩ := twoDigits?_eq_some h₁
  obtain ⟨c, d, rfl⟩ := twoDigits?_eq_some h₂
  obtain ⟨e, he, rfl⟩ := skipOne_eq_some h₃
  obtain rfl := List.mem_singleton.mp he
  simp

theorem mem_of_time? {cs rest : List Char} (h : time? cs = some rest) : ':' ∈ cs := by
  obtain ⟨cs₀, hclock, -⟩ := Option.bind_eq_some_iff.mp h
  unfold clock? at hclock
  obtain ⟨⟨hour, cs₁⟩, h₁, h⟩ := Option.bind_eq_some_iff.mp hclock
  obtain ⟨cs₂, h₂, h⟩ := Option.bind_eq_some_iff.mp h
  obtain ⟨a, b, rfl⟩ := twoDigits?_eq_some h₁
  obtain ⟨c, hc, rfl⟩ := skipOne_eq_some h₂
  obtain rfl := List.mem_singleton.mp hc
  simp

/-- A date has dashes inside, a time has colons. -/
theorem isDatetime_eq_false {cs : List Char} (hd : '-' ∉ cs.tail) (ht : ':' ∉ cs) :
    isDatetime cs = false := by
  have hdate : date? cs = none := by
    rw [Option.eq_none_iff_forall_ne_some]
    exact fun rest h => hd (mem_tail_of_date? h)
  rw [isDatetime, hdate]
  simpa using fun h => ht (mem_of_time? h)

section Decimal

variable {cs ds : List Char} (h : Grouped 10 cs ds) (hz : NoLeadingZero ds)

include h

theorem mem_decimal : ∀ c ∈ cs, c.isDigit = true ∨ c = '_' := fun c hc =>
  (h.mem_text c hc).imp_left fun hd => (hd.decimal le_rfl).1

theorem not_mem_decimal {c : Char} (hc : c.isDigit = false) (hne : c ≠ '_') : c ∉ cs := by
  intro hmem
  rcases mem_decimal h c hmem with hd | rfl
  · rw [hc] at hd
    cases hd
  · exact hne rfl

include hz

theorem integer?_decimal (negative : Bool) : integer? negative cs =
    some (integerNode (if negative then -numberOf 10 ds else numberOf 10 ds)) := by
  have hne : cs.isEmpty = false := by
    obtain ⟨_, _, _, rfl, -⟩ := h.exists_cons
    rfl
  have hsub := (List.dropWhile_suffix (l := cs) Char.isDigit).subset
  have hhead : (cs.dropWhile Char.isDigit).head?.any (· ≠ '_') = false := by
    have hnot := List.head?_dropWhile_not Char.isDigit cs
    cases hd : (cs.dropWhile Char.isDigit).head? with
    | none => rfl
    | some c =>
      rw [hd] at hnot
      have hmem := mem_decimal h c (hsub (List.mem_of_head? hd))
      simpa [hnot] using hmem
  have hblank : ' ' ∉ cs.dropWhile Char.isDigit :=
    fun hb => not_mem_decimal h rfl (by decide) (hsub hb)
  have hdigits : ds.all Char.isDigit = true :=
    List.all_eq_true.mpr fun c hc => ((h.mem_digits c hc).decimal le_rfl).1
  unfold integer?
  simp only [hne, h.hasLeadingZero hz, hhead, hblank, Bool.or_self, decide_false,
    Bool.false_eq_true, ↓reduceIte, h.dropUnderscores? (fun _ hc => hc.isHexDigit) false,
    Option.map_some, hdigits, digitsValue_eq h.mem_digits]

theorem decimal?_decimal (negative : Bool) : decimal? negative cs =
    some (integerNode (if negative then -numberOf 10 ds else numberOf 10 ds)) := by
  have hinf : cs ≠ "inf".toList := by
    rintro rfl
    exact not_mem_decimal h (c := 'n') rfl (by decide) (by decide)
  have hnan : cs ≠ "nan".toList := by
    rintro rfl
    exact not_mem_decimal h (c := 'n') rfl (by decide) (by decide)
  have hpoint : (cs.any fun c => c = '.' || isExponentMark c) = false := by
    rw [List.any_eq_false]
    intro c hc hmark
    simp only [isExponentMark, Bool.or_eq_true, decide_eq_true_eq] at hmark
    rcases hmark with rfl | rfl | rfl
    · exact not_mem_decimal h rfl (by decide) hc
    · exact not_mem_decimal h rfl (by decide) hc
    · exact not_mem_decimal h rfl (by decide) hc
  rw [decimal?, if_neg hinf, if_neg hnan, hpoint, if_neg Bool.false_ne_true]
  exact integer?_decimal h hz negative

theorem number?_decimal : number? cs = some (integerNode (numberOf 10 ds)) := by
  have hzero := h.hasLeadingZero hz
  obtain ⟨c, _, _, hc, -, hdigit⟩ := h.exists_cons
  unfold number?
  split
  case h_4 | h_5 =>
    obtain ⟨rfl, -⟩ := List.cons.inj hc
    exact absurd rfl (hdigit.ne rfl)
  case h_6 => exact decimal?_decimal h hz false
  all_goals cases hzero

end Decimal

theorem based?_grouped {base : Nat} {cs ds : List Char} {p : Char → Bool} (h : Grouped base cs ds)
    (hp : ∀ c, IsDigit base c → p c = true) :
    based? base p cs = some (integerNode (numberOf base ds)) := by
  have hne : ds.isEmpty = false := by
    obtain ⟨_, _, _, -, rfl, -⟩ := h.exists_cons
    rfl
  have hall : ds.all p = true := List.all_eq_true.mpr fun c hc => hp c (h.mem_digits c hc)
  rw [based?, h.dropUnderscores? hp, numberOf_eq_foldl]
  simp only [Option.bind_eq_bind, Option.bind_some, hne, hall, Bool.false_eq_true, ↓reduceIte]
  rfl

theorem number?_based {mark : Char} {base : Nat} {cs ds : List Char} (hm : (mark, base) ∈ bases)
    (h : Grouped base cs ds) :
    number? ('0' :: mark :: cs) = some (integerNode (numberOf base ds)) := by
  simp only [bases, List.mem_cons, Prod.mk.injEq, List.not_mem_nil, or_false] at hm
  rcases hm with ⟨rfl, rfl⟩ | ⟨rfl, rfl⟩ | ⟨rfl, rfl⟩
  · exact based?_grouped h fun c hc => hc.isHexDigit
  · refine based?_grouped h fun c hc => ?_
    obtain ⟨hlo, hhi⟩ := hc.toNat_bounds (by decide)
    simpa [Char.le_def, UInt32.le_iff_toNat_le] using ⟨hlo, Nat.le_of_lt_succ hhi⟩
  · refine based?_grouped h fun c hc => ?_
    obtain ⟨hlo, hhi⟩ := hc.toNat_bounds (by decide)
    have hc : c.toNat = '0'.toNat ∨ c.toNat = '1'.toNat := by
      have h0 : '0'.toNat = 48 := rfl
      have h1 : '1'.toNat = 49 := rfl
      omega
    simpa using hc.imp Char.toNat_inj.mp Char.toNat_inj.mp

theorem number?_plus (cs : List Char) : number? ('+' :: cs) = decimal? false cs := rfl

theorem number?_minus (cs : List Char) : number? ('-' :: cs) = decimal? true cs := rfl

theorem string?_eq_none {c : Char} (hc : isQuote c = false) (cs : List Char) :
    string? (c :: cs) = none := by
  simp only [isQuote, Bool.or_eq_false_iff, decide_eq_false_iff_not] at hc
  unfold string?
  split
  next heq => exact absurd (List.cons.inj heq).1 hc.1
  next heq => exact absurd (List.cons.inj heq).1 hc.2
  next =>
    unfold lineString?
    split
    next heq => exact absurd (List.cons.inj heq).1 hc.1
    next heq => exact absurd (List.cons.inj heq).1 hc.2
    next => rfl

/-- A value that opens no string, array or table is a word. -/
theorem value_word {c : Char} {w rest : List Char} (hw : ∀ x ∈ c :: w, isWordChar x = true)
    (hq : isQuote c = false) (hr : takeWord rest = ([], rest)) (fuel depth : Nat) :
    value (fuel + 1) depth (c :: w ++ rest) = some (orMalformed (scalar? (c :: w)), rest) := by
  have htake : takeWord (c :: w ++ rest) = (c :: w, rest) := takeWord_append hw hr
  have hc := hw c List.mem_cons_self
  have hbracket : c ≠ '[' := by
    rintro rfl
    exact absurd hc (by decide)
  have hbrace : c ≠ '\x7b' := by
    rintro rfl
    exact absurd hc (by decide)
  rw [List.cons_append] at htake ⊢
  unfold value
  simp only [string?_eq_none hq]
  split
  next heq => exact absurd (List.cons.inj heq).1 hbracket
  next heq => exact absurd (List.cons.inj heq).1 hbrace
  next heq => exact absurd (List.cons.inj heq).1 hbracket
  next heq => exact absurd (List.cons.inj heq).1 hbrace
  next =>
    rw [htake]
    rfl

/-- The characters behind the first one of a numeral: word characters with no date or time among them. -/
def IsInner (c : Char) : Prop := isWordChar c = true ∧ c ≠ '-' ∧ c ≠ ':'

theorem isInner_of_grouped {base : Nat} {cs ds : List Char} (h : Grouped base cs ds) :
    ∀ c ∈ cs, IsInner c := by
  intro c hc
  rcases h.mem_text c hc with hd | rfl
  · exact ⟨hd.isWordChar, hd.ne rfl, hd.ne rfl⟩
  · exact ⟨rfl, by decide, by decide⟩

/-- A number that starts like one stands for itself. -/
theorem stands_of_number? {c : Char} {w : List Char} {n : Node}
    (hc : IsDigit 10 c ∨ c = '+' ∨ c = '-') (hw : ∀ x ∈ w, IsInner x)
    (hn : number? (c :: w) = some n) : Stands .toml (c :: w) n := by
  have hfirst : ∀ x : Char, x.isDigit = false → x ≠ '+' → x ≠ '-' → c ≠ x := by
    rintro x hx hplus hminus rfl
    rcases hc with hd | hc | hc
    · exact absurd (hd.decimal le_rfl).1 (by simp [hx])
    · exact hplus hc
    · exact hminus hc
  have hq : isQuote c = false := by
    simp [isQuote, hfirst '"' rfl, hfirst '\'' rfl]
  have hword : ∀ x ∈ c :: w, isWordChar x = true := by
    refine List.forall_mem_cons.mpr ⟨?_, fun x hx => (hw x hx).1⟩
    rcases hc with hd | rfl | rfl
    · exact hd.isWordChar
    · rfl
    · rfl
  have htrue : c :: w ≠ "true".toList :=
    fun he => hfirst 't' rfl (by decide) (by decide) (List.cons.inj he).1
  have hfalse : c :: w ≠ "false".toList :=
    fun he => hfirst 'f' rfl (by decide) (by decide) (List.cons.inj he).1
  have hdate : isDatetime (c :: w) = false := by
    refine isDatetime_eq_false (fun hx => (hw _ hx).2.1 rfl) ?_
    rw [List.mem_cons, not_or]
    exact ⟨(hfirst ':' rfl (by decide) (by decide)).symm, fun hx => (hw _ hx).2.2 rfl⟩
  intro fuel depth rest hr
  rw [value_word hword hq hr, scalar?, if_neg htrue, if_neg hfalse, hdate,
    if_neg Bool.false_ne_true, hn]
  rfl

end Toml

/-! Numbers of JSON. -/

namespace Json

variable {ds rest : List Char}

theorem countDigits_append (hd : ∀ c ∈ ds, c.isDigit = true) (hr : Ends .json rest) :
    countDigits (ds ++ rest) = (ds.length, rest) := by
  have hrest : rest.takeWhile Char.isDigit = [] ∧ rest.dropWhile Char.isDigit = rest := by
    cases rest with
    | nil => exact ⟨rfl, rfl⟩
    | cons c cs =>
      have hc := (hr c rfl).1
      simp [hc]
  rw [countDigits, List.takeWhile_append_of_pos hd, List.dropWhile_append_of_pos hd, hrest.1,
    hrest.2, List.append_nil]

/-- What the digits behind this number make of it. -/
def append (n : Nat) (ds : List Char) : Nat := ds.foldl (fun n c => 10 * n + Binary64.digitValue c) n

theorem le_append (n : Nat) (ds : List Char) : n ≤ append n ds := by
  induction ds generalizing n with
  | nil => exact le_rfl
  | cons c ds ih =>
    calc n ≤ 10 * n + Binary64.digitValue c := by omega
      _ ≤ append n (c :: ds) := ih _

/-- What is found is a float, or broken, and does not depend on the text behind the number. -/
def FindsFloat (reader : Bool → Nat → Int → List Char → Partial) : Prop :=
  ∀ negative n e, ∃ node, (∀ rest, (reader negative n e rest).1 = node) ∧
    ((∃ x, node = .float x) ∨ ∃ p, node = .broken .scalar p)

theorem findsFloat_floatNode : FindsFloat floatNode := by
  delta floatNode
  -- a name of its own keeps the scaling closed, which cannot be evaluated on a variable
  obtain ⟨scaled, hs⟩ : ∃ f, f = Binary64.scaled? := ⟨_, rfl⟩
  rw [← hs]
  intro negative n e
  cases h : scaled negative n e with
  | some x => exact ⟨.float x, fun rest => by simp only [h], .inl ⟨x, rfl⟩⟩
  | none => exact ⟨.broken .scalar .malformed, fun rest => by simp only [h], .inr ⟨.malformed, rfl⟩⟩

/-- Digits are taken until the next one would take the number past a word. -/
theorem takeWord_append {n : Nat} (hn : n ≤ maxWord) (hd : ∀ c ∈ ds, c.isDigit = true) :
    ∃ taken left, ds = taken ++ left ∧ (left = [] ↔ append n ds ≤ maxWord) ∧
      ∀ k rest, Ends .json rest →
        takeWord n k (ds ++ rest) = (append n taken, k + taken.length, left ++ rest) := by
  induction ds generalizing n with
  | nil =>
    refine ⟨[], [], rfl, by simpa [append] using hn, fun k rest hr => ?_⟩
    cases rest with
    | nil => rfl
    | cons c cs =>
      have hc := (hr c rfl).1
      simp [takeWord, hc, append]
  | cons c ds ih =>
    obtain ⟨hc, hd⟩ := List.forall_mem_cons.mp hd
    by_cases hle : 10 * n + Binary64.digitValue c ≤ maxWord
    · obtain ⟨taken, left, rfl, hleft, htake⟩ := ih hle hd
      refine ⟨c :: taken, left, rfl, hleft, fun k rest hr => ?_⟩
      simp only [List.cons_append, takeWord, hc, hle, decide_true, Bool.and_self, ↓reduceIte,
        htake (k + 1) rest hr]
      simp only [append, List.foldl_cons, List.length_cons, Prod.mk.injEq, true_and, and_true]
      omega
    · refine ⟨[], c :: ds, rfl, ?_, fun k rest hr => by simp [takeWord, hle, append]⟩
      have hlt : maxWord < append n (c :: ds) :=
        lt_of_lt_of_le (Nat.lt_of_not_le hle) (le_append _ ds)
      simp only [reduceCtorEq, false_iff]
      omega

theorem afterInteger_append (negative : Bool) (n : Nat) (hd : ∀ c ∈ ds, c.isDigit = true)
    (hr : Ends .json rest) : afterInteger negative n (ds ++ rest) =
      if ds.length = 0 then (integerNode negative n, some rest)
      else floatNode negative n ds.length rest := by
  unfold afterInteger
  rw [countDigits_append hd hr]
  simp only
  split
  next => exact absurd rfl (hr '.' rfl).2.1
  next => exact absurd rfl (hr 'e' rfl).2.2.1
  next => exact absurd rfl (hr 'E' rfl).2.2.2
  next => rfl

theorem number_zero (negative : Bool) (hr : Ends .json rest) :
    number negative ('0' :: rest) = afterInteger negative 0 rest := by
  have hhead : (rest.head?.map Char.isDigit).getD false = false := by
    cases rest with
    | nil => rfl
    | cons c cs => simpa using (hr c rfl).1
  rw [number, hhead, if_neg Bool.false_ne_true]

theorem number_digit (negative : Bool) {c : Char} (hc : c.isDigit = true) (h0 : c ≠ '0')
    (cs : List Char) : number negative (c :: cs) =
      afterInteger negative (takeWord 0 0 (c :: cs)).1 (takeWord 0 0 (c :: cs)).2.2 := by
  unfold number
  split
  next heq => exact absurd (List.cons.inj heq).1 h0
  next heq =>
    obtain ⟨rfl, rfl⟩ := List.cons.inj heq
    rw [if_pos hc]
  next heq => cases heq

section Number

variable (negative : Bool) (hne : ds ≠ []) (hd : ∀ c ∈ ds, IsDigit 10 c) (hz : NoLeadingZero ds)

include hne hd hz

/-- The digits of a number are taken as long as a word holds them. -/
theorem number_append :
    ∃ taken left, ds = taken ++ left ∧ (left = [] ↔ numberOf 10 ds ≤ maxWord) ∧
      ∀ rest, Ends .json rest →
        number negative (ds ++ rest) = afterInteger negative (append 0 taken) (left ++ rest) := by
  by_cases h0 : ds = ['0']
  · have hle : numberOf 10 ['0'] ≤ maxWord := by decide
    rw [h0]
    exact ⟨['0'], [], rfl, by simp [hle], fun rest hr => number_zero negative hr⟩
  · have hdec : ∀ c ∈ ds, c.isDigit = true := fun c hc => ((hd c hc).decimal le_rfl).1
    have hvalue : append 0 ds = numberOf 10 ds := digitsValue_eq hd
    obtain ⟨taken, left, hds, hleft, htake⟩ := takeWord_append (Nat.zero_le maxWord) hdec
    rw [hvalue] at hleft
    refine ⟨taken, left, hds, hleft, fun rest hr => ?_⟩
    have htake := htake 0 rest hr
    obtain ⟨c, cs, rfl⟩ := List.exists_cons_of_ne_nil hne
    have hc0 : c ≠ '0' := by
      rintro rfl
      exact h0 (hz rfl)
    rw [List.cons_append] at htake ⊢
    rw [number_digit negative (hdec c List.mem_cons_self) hc0, htake]

/-- A number that a word holds is an integer. -/
theorem number_of_le (hle : numberOf 10 ds ≤ maxWord) (hr : Ends .json rest) :
    (number negative (ds ++ rest)).1 = integerNode negative (numberOf 10 ds) := by
  obtain ⟨taken, left, hds, hleft, hnumber⟩ := number_append negative hne hd hz
  have hnil := hleft.mpr hle
  rw [hnil, List.append_nil] at hds
  have hvalue : append 0 taken = numberOf 10 ds := hds ▸ digitsValue_eq hd
  have hafter := afterInteger_append negative (append 0 taken) (List.forall_mem_nil _) hr
  rw [if_pos List.length_nil] at hafter
  rw [hnumber rest hr, hnil, hafter, hvalue]

/-- Another number is a float, if there is one. -/
theorem exists_number_of_lt (hlt : maxWord < numberOf 10 ds) :
    ∃ n, (∀ rest, Ends .json rest → (number negative (ds ++ rest)).1 = n) ∧
      ((∃ x, n = .float x) ∨ ∃ p, n = .broken .scalar p) := by
  obtain ⟨taken, left, hds, hleft, hnumber⟩ := number_append negative hne hd hz
  have hlen : left.length ≠ 0 := fun h =>
    absurd (hleft.mp (List.length_eq_zero_iff.mp h)) (Nat.not_le_of_lt hlt)
  have hl : ∀ c ∈ left, c.isDigit = true := fun c hc =>
    ((hd c (hds ▸ List.mem_append_right _ hc)).decimal le_rfl).1
  obtain ⟨n, hn, hfloat⟩ := findsFloat_floatNode negative (append 0 taken) left.length
  refine ⟨n, fun rest hr => ?_, hfloat⟩
  rw [hnumber rest hr, afterInteger_append negative _ hl hr, if_neg hlen, hn]

end Number

end Json

theorem Json.value_number (fuel depth : Nat) {c : Char} (hc : c.isDigit = true) (cs : List Char) :
    Json.value (fuel + 1) depth (c :: cs) = Json.number false (c :: cs) := by
  have hne : ∀ x : Char, x.isDigit = false → c ≠ x := by
    rintro x hx rfl
    rw [hx] at hc
    cases hc
  have hspace : Json.isSpace c = false := by
    simp [Json.isSpace, hne ' ' rfl, hne '\n' rfl, hne '\t' rfl, hne '\r' rfl]
  unfold Json.value
  simp only [Json.skipSpace, List.dropWhile_cons, hspace, Bool.false_eq_true, ↓reduceIte,
    hne 'n' rfl, hne 't' rfl, hne 'f' rfl, hne '-' rfl, hc]

theorem Json.value_minus (fuel depth : Nat) (cs : List Char) :
    Json.value (fuel + 1) depth ('-' :: cs) = Json.number true cs := by
  rw [Json.value]
  rfl

/-! Numerals. -/

theorem Numeral.stands_toml {w : List Char} {i : Int} (h : Numeral .toml w i) :
    Stands .toml w (Toml.integerNode i) := by
  cases h with
  | decimal h hz =>
    have hn := Toml.number?_decimal h hz
    have hinner := Toml.isInner_of_grouped h
    obtain ⟨c, cs, _, rfl, -, hc⟩ := h.exists_cons
    exact Toml.stands_of_number? (.inl hc) (fun x hx => hinner x (.tail c hx)) hn
  | plus h hz =>
    refine Toml.stands_of_number? (.inr (.inl rfl)) (Toml.isInner_of_grouped h) ?_
    rw [Toml.number?_plus, Toml.decimal?_decimal h hz, if_neg Bool.false_ne_true]
  | minus h hz =>
    refine Toml.stands_of_number? (.inr (.inr rfl)) (Toml.isInner_of_grouped h) ?_
    rw [Toml.number?_minus, Toml.decimal?_decimal h hz, if_pos rfl]
  | @based mark base cs ds hm h =>
    have hmark : Toml.IsInner mark := by
      simp only [bases, List.mem_cons, Prod.mk.injEq, List.not_mem_nil, or_false] at hm
      rcases hm with ⟨rfl, -⟩ | ⟨rfl, -⟩ | ⟨rfl, -⟩ <;> exact ⟨rfl, by decide, by decide⟩
    have hinner := List.forall_mem_cons.mpr ⟨hmark, Toml.isInner_of_grouped h⟩
    exact Toml.stands_of_number? (.inl ⟨0, by decide, rfl⟩) hinner (Toml.number?_based hm h)

theorem isSignedWord_iff {i : Int} :
    isSignedWord i = true ↔ -9223372036854775808 ≤ i ∧ i ≤ 9223372036854775807 := by
  have hmin : Int64.minValue.toInt = -9223372036854775808 := rfl
  have hmax : Int64.maxValue.toInt = 9223372036854775807 := rfl
  simp only [isSignedWord, Bool.and_eq_true, decide_eq_true_eq, hmin, hmax]

theorem isWordInteger_iff {i : Int} :
    isWordInteger i = true ↔ -9223372036854775808 ≤ i ∧ i ≤ 18446744073709551615 := by
  have hmin : Int64.minValue.toInt = -9223372036854775808 := rfl
  have hsize : UInt64.size = 18446744073709551616 := rfl
  simp only [isWordInteger, Bool.and_eq_true, decide_eq_true_eq, hmin, hsize]
  omega

theorem Toml.integerNode_wide {i : Int} (h : isWordInteger i = false) :
    (Toml.integerNode i).problem? ≠ none := by
  unfold Toml.integerNode
  split
  · simp [Node.problem?, h]
  · simp [Node.problem?]

theorem integerNode_toml (i : Int) : IntegerNode .toml i (Toml.integerNode i) where
  word h := by
    have hwide : -wideLimit ≤ i ∧ i < 2 * wideLimit := by
      have hlimit : wideLimit = 170141183460469231731687303715884105728 := rfl
      obtain ⟨hlo, hhi⟩ := isWordInteger_iff.mp h
      omega
    rw [Toml.integerNode, if_pos (by simpa using hwide)]
  wide h := .inl (Toml.integerNode_wide h)

/-- A magnitude with a sign. -/
def signed (negative : Bool) (n : Nat) : Int := if negative then -n else n

namespace Json

variable {negative : Bool} {n : Nat}

theorem integerNode_word (h0 : negative = true → n ≠ 0) (h : isWordInteger (signed negative n) = true) :
    integerNode negative n = .integer (signed negative n) := by
  obtain ⟨hlo, hhi⟩ := isWordInteger_iff.mp h
  cases negative with
  | false => rfl
  | true =>
    have hn : n ≠ 0 := h0 rfl
    have hs : isSignedWord (-n) = true := by
      simp only [signed, ↓reduceIte] at hlo hhi
      exact isSignedWord_iff.mpr ⟨hlo, by omega⟩
    simp [integerNode, signed, hn, hs]

theorem integerNode_wide (hn : n ≤ maxWord) (h : isWordInteger (signed negative n) = false) :
    ∃ x, integerNode negative n = .float x := by
  have hmax : maxWord = 18446744073709551615 := rfl
  have hno : ¬ isWordInteger (signed negative n) = true := by simp [h]
  rw [isWordInteger_iff] at hno
  cases negative with
  | false =>
    simp only [signed, Bool.false_eq_true, ↓reduceIte] at hno
    omega
  | true =>
    simp only [signed, ↓reduceIte] at hno
    have hs : isSignedWord (-n) = false := by
      rw [Bool.eq_false_iff, ne_eq, isSignedWord_iff]
      omega
    exact ⟨Binary64.ofRatio true n 1, by simp [integerNode, hs]⟩

theorem isWordInteger_of_lt (hn : maxWord < n) : isWordInteger (signed negative n) = false := by
  have hmax : maxWord = 18446744073709551615 := rfl
  rw [Bool.eq_false_iff, ne_eq, isWordInteger_iff]
  cases negative <;> simp only [signed, Bool.false_eq_true, ↓reduceIte] <;> omega

theorem exists_number {ds : List Char} (hne : ds ≠ []) (hd : ∀ c ∈ ds, IsDigit 10 c)
    (hz : NoLeadingZero ds) (h0 : negative = true → numberOf 10 ds ≠ 0) :
    ∃ n, (∀ rest, Ends .json rest → (number negative (ds ++ rest)).1 = n) ∧
      IntegerNode .json (signed negative (numberOf 10 ds)) n := by
  rcases Nat.lt_or_ge maxWord (numberOf 10 ds) with hlt | hle
  · obtain ⟨n, hn, hfloat⟩ := exists_number_of_lt negative hne hd hz hlt
    have hwide : isWordInteger (signed negative (numberOf 10 ds)) = false :=
      isWordInteger_of_lt hlt
    refine ⟨n, hn, fun hw => ?_, fun _ => ?_⟩
    · rw [hwide] at hw
      cases hw
    · rcases hfloat with hfloat | ⟨p, rfl⟩
      · exact .inr ⟨rfl, hfloat⟩
      · exact .inl nofun
  · exact ⟨_, fun rest hr => number_of_le negative hne hd hz hle hr, integerNode_word h0,
      fun hw => .inr ⟨rfl, integerNode_wide hle hw⟩⟩

end Json

theorem Numeral.stands_json {w : List Char} {i : Int} (h : Numeral .json w i) :
    ∃ n, Stands .json w n ∧ IntegerNode .json i n := by
  cases h with
  | json hne hd hz =>
    obtain ⟨n, hn, hnode⟩ := @Json.exists_number false _ hne hd hz nofun
    obtain ⟨c, cs, rfl⟩ := List.exists_cons_of_ne_nil hne
    have hc := ((hd c List.mem_cons_self).decimal le_rfl).1
    refine ⟨n, fun fuel depth rest hr => ?_, hnode⟩
    rw [List.cons_append, Json.value_number fuel depth hc, ← List.cons_append, hn rest hr]
  | jsonMinus hne hd hz h0 =>
    obtain ⟨n, hn, hnode⟩ := @Json.exists_number true _ hne hd hz fun _ => h0
    refine ⟨n, fun fuel depth rest hr => ?_, hnode⟩
    rw [List.cons_append, Json.value_minus, hn rest hr]

/-- The readers find one node wherever a numeral stands. -/
theorem Numeral.stands {format : Format} {w : List Char} {i : Int} (h : Numeral format w i) :
    ∃ n, Stands format w n ∧ IntegerNode format i n := by
  cases format with
  | toml => exact ⟨_, h.stands_toml, integerNode_toml i⟩
  | json => exact h.stands_json

end Ambient.Manifest
