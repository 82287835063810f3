import Ambient.Proofs.Description.CodeLines
import Mathlib.Data.List.DropRight

/-!
The normal form of descriptions: one line without blanks at its ends. Flattening brings every text into it and
leaves a text alone that is in it, no character is lost but blanks, and a line break divides the work.
-/
namespace Ambient

namespace Text

variable {s p q : List Char}

/-- A text that neither begins nor ends with a blank. -/
structure Trimmed (s : List Char) : Prop where
  first : ∀ c ∈ s.head?, isBlank c = false
  last : ∀ c ∈ s.getLast?, isBlank c = false

theorem trimmed_nil : Trimmed [] := ⟨by simp, by simp⟩

theorem trimmed_trim (s : List Char) : Trimmed (trim s) where
  first := by
    intro c hc
    -- Cutting the end leaves a prefix, so the first character is the one behind the leading blanks.
    obtain ⟨t, ht⟩ : trim s <+: s.dropWhile isBlank := List.rdropWhile_prefix isBlank _
    have hd : (s.dropWhile isBlank).head? = some c := by
      rw [← ht]
      exact List.mem_head?_append_of_mem_head? hc
    have hn := List.head?_dropWhile_not isBlank s
    rwa [hd] at hn
  last := by
    intro c hc
    obtain ⟨hne, rfl⟩ := List.mem_getLast?_eq_getLast hc
    exact Bool.eq_false_iff.mpr (List.rdropWhile_last_not isBlank _ hne)

theorem trim_eq_self_iff : trim s = s ↔ Trimmed s := by
  constructor
  · intro h
    exact h ▸ trimmed_trim s
  · intro h
    have hd : s.dropWhile isBlank = s := by
      cases s with
      | nil => rfl
      | cons c s => exact List.dropWhile_cons_of_neg (by simp [h.first c rfl])
    rw [trim, hd]
    refine List.rdropWhile_eq_self_iff.mpr fun hne => ?_
    simp [h.last _ (List.getLast?_eq_some_getLast hne)]

theorem Trimmed.append_space (hp : Trimmed p) (hq : Trimmed q) (hpn : p ≠ []) (hqn : q ≠ []) :
    Trimmed (p ++ ' ' :: q) where
  first := by
    rw [List.head?_append_of_ne_nil _ hpn]
    exact hp.first
  last := by
    rw [List.getLast?_append_of_ne_nil _ (List.cons_ne_nil _ _), List.getLast?_cons_of_ne_nil hqn]
    exact hq.last

/-- The characters of a text that are not blank. -/
def visible (s : List Char) : List Char := s.filter (!isBlank ·)

theorem visible_append (s t : List Char) : visible (s ++ t) = visible s ++ visible t :=
  List.filter_append s t

theorem visible_flatten_map {f : List Char → List Char} (h : ∀ s, visible (f s) = visible s)
    (ps : List (List Char)) : visible (ps.map f).flatten = visible ps.flatten := by
  have hm : (ps.map f).map visible = ps.map visible := by
    rw [List.map_map]
    exact List.map_congr_left fun p _ => h p
  calc visible (ps.map f).flatten
      = ((ps.map f).map visible).flatten := List.filter_flatten
    _ = (ps.map visible).flatten := by rw [hm]
    _ = visible ps.flatten := List.filter_flatten.symm

theorem visible_dropWhile (s : List Char) : visible (s.dropWhile isBlank) = visible s := by
  induction s with
  | nil => rfl
  | cons c s ih =>
    cases hc : isBlank c with
    | true =>
      rw [List.dropWhile_cons_of_pos hc, ih]
      simp [visible, hc]
    | false => rw [List.dropWhile_cons_of_neg (by simp [hc])]

theorem visible_trim (s : List Char) : visible (trim s) = visible s := by
  have hr : ∀ t : List Char, visible t.reverse = (visible t).reverse := fun _ => List.filter_reverse
  rw [trim, trimEnd, dropEndWhile, hr, visible_dropWhile, hr, List.reverse_reverse, visible_dropWhile]

theorem flatten_splitWhere (cut : Char → Bool) (s : List Char) :
    (splitWhere cut s).flatten = s.filter (!cut ·) := by
  induction s with
  | nil => rfl
  | cons a s ih =>
    by_cases ha : cut a
    · simp [splitWhere, ha, ih]
    · cases hs : splitWhere cut s with
      | nil => exact absurd hs (splitWhere_ne_nil cut s)
      | cons p ps =>
        rw [hs] at ih
        simp [splitWhere, ha, hs, ← ih]

end Text

namespace Doc
open Text

/-- What flattening keeps of the lines of a text. -/
def phrases (s : List Char) : List (List Char) :=
  ((splitWhere isBreak s).map trim).filter (!·.isEmpty)

theorem flattenChars_eq (s : List Char) : flattenChars s = [' '].intercalate (phrases s) := rfl

theorem of_mem_phrases {s p : List Char} (h : p ∈ phrases s) : p ≠ [] ∧ Trimmed p := by
  obtain ⟨hp, hne⟩ := List.mem_filter.mp h
  obtain ⟨l, -, rfl⟩ := List.mem_map.mp hp
  exact ⟨by simpa using hne, trimmed_trim l⟩

/-! The lines put together. -/

theorem intercalate_space_eq_nil_iff {ps : List (List Char)} (h : ∀ p ∈ ps, p ≠ []) :
    [' '].intercalate ps = [] ↔ ps = [] := by
  cases ps with
  | nil => simp
  | cons p ps =>
    rw [List.forall_mem_cons] at h
    cases ps <;> simp [h.1]

theorem trimmed_intercalate_space {ps : List (List Char)} (h : ∀ p ∈ ps, p ≠ [] ∧ Trimmed p) :
    Trimmed ([' '].intercalate ps) := by
  induction ps with
  | nil => exact trimmed_nil
  | cons p ps ih =>
    rw [List.forall_mem_cons] at h
    obtain ⟨⟨hne, hp⟩, hps⟩ := h
    cases ps with
    | nil => rwa [List.intercalate_singleton]
    | cons q qs =>
      have hq : [' '].intercalate (q :: qs) ≠ [] := fun he =>
        List.cons_ne_nil q qs ((intercalate_space_eq_nil_iff fun p hp => (hps p hp).1).mp he)
      rw [List.intercalate_cons_cons, List.append_assoc]
      exact hp.append_space (ih hps) hne hq

theorem visible_intercalate_space (ps : List (List Char)) :
    visible ([' '].intercalate ps) = visible ps.flatten := by
  induction ps with
  | nil => rfl
  | cons p ps ih =>
    cases ps with
    | nil => simp
    | cons q qs =>
      have hs : visible [' '] = [] := by decide
      rw [List.intercalate_cons_cons, visible_append, visible_append, hs, List.append_nil, ih,
        ← visible_append, List.flatten_cons (l := p)]

/-! Texts. -/

theorem isBlank_of_isBreak {c : Char} (h : isBreak c = true) : isBlank c = true := by
  simp only [isBreak, Bool.or_eq_true, decide_eq_true_eq] at h
  rcases h with rfl | rfl <;> decide

theorem visible_filter_isBreak (s : List Char) : visible (s.filter (!isBreak ·)) = visible s := by
  rw [visible, List.filter_filter]
  refine List.filter_congr fun c _ => ?_
  cases hb : isBreak c with
  | true => simp [isBlank_of_isBreak hb]
  | false => simp

theorem visible_flatten (text : String) : visible (flatten text).toList = visible text.toList := by
  rw [flatten, String.toList_ofList, flattenChars_eq, visible_intercalate_space, phrases,
    List.flatten_filter_not_isEmpty, visible_flatten_map visible_trim, flatten_splitWhere,
    visible_filter_isBreak]

theorem trimmed_flatten (text : String) : Trimmed (flatten text).toList := by
  rw [flatten, String.toList_ofList, flattenChars_eq]
  exact trimmed_intercalate_space fun _ => of_mem_phrases

theorem flatten_of_oneLine {text : String} (h : OneLine text) :
    flatten text = String.ofList (trim text.toList) := by
  have hp : phrases text.toList = [trim text.toList].filter (!·.isEmpty) := by
    rw [phrases, splitWhere_of_forall h, List.map_singleton]
  rw [flatten, flattenChars_eq, hp]
  cases trim text.toList <;> simp

/-- The texts in normal form are those that flattening leaves alone. -/
theorem flatten_eq_self_iff {text : String} :
    flatten text = text ↔ OneLine text ∧ Trimmed text.toList := by
  constructor
  · intro h
    have hf := And.intro (oneLine_flatten text) (trimmed_flatten text)
    rwa [h] at hf
  · rintro ⟨h, ht⟩
    rw [flatten_of_oneLine h, trim_eq_self_iff.mpr ht, String.ofList_toList]

/-! Line breaks. -/

theorem phrases_append_cons {c : Char} (h : isBreak c = true) (s t : List Char) :
    phrases (s ++ c :: t) = phrases s ++ phrases t := by
  rw [phrases, splitWhere_append_cons h, List.map_append, List.filter_append]
  rfl

theorem phrases_breaks_append {breaks : List Char} (h : ∀ c ∈ breaks, isBreak c = true)
    (t : List Char) : phrases (breaks ++ t) = phrases t := by
  induction breaks with
  | nil => rfl
  | cons c cs ih =>
    rw [List.forall_mem_cons] at h
    exact (phrases_append_cons h.1 [] (cs ++ t)).trans (ih h.2)

/-- However many breaks follow each other, the lines are those before and those behind them. -/
theorem phrases_append_breaks {breaks : List Char} (hne : breaks ≠ [])
    (h : ∀ c ∈ breaks, isBreak c = true) (s t : List Char) :
    phrases (s ++ breaks ++ t) = phrases s ++ phrases t := by
  cases breaks with
  | nil => exact absurd rfl hne
  | cons c cs =>
    rw [List.forall_mem_cons] at h
    rw [List.append_assoc, List.cons_append, phrases_append_cons h.1, phrases_breaks_append h.2]

theorem flatten_eq_intercalate (text : String) :
    flatten text = " ".intercalate ((phrases text.toList).map String.ofList) := by
  apply String.toList_injective
  rw [String.toList_intercalate, List.map_map, flatten, String.toList_ofList, flattenChars_eq]
  simp [Function.comp_def]

theorem flatten_eq_empty_iff {text : String} : flatten text = "" ↔ phrases text.toList = [] := by
  rw [← String.toList_eq_nil_iff, flatten, String.toList_ofList, flattenChars_eq,
    intercalate_space_eq_nil_iff fun _ h => (of_mem_phrases h).1]

/-- Two texts with a space between them, or the one that is not empty. -/
def beside (s t : String) : String := if s = "" then t else if t = "" then s else s ++ " " ++ t

theorem flatten_append_breaks {breaks : String} (hne : breaks ≠ "")
    (h : ∀ c ∈ breaks.toList, isBreak c = true) (a b : String) :
    flatten (a ++ breaks ++ b) = beside (flatten a) (flatten b) := by
  have hp : phrases (a ++ breaks ++ b).toList = phrases a.toList ++ phrases b.toList := by
    rw [String.toList_append, String.toList_append]
    exact phrases_append_breaks (mt String.toList_eq_nil_iff.mp hne) h _ _
  rw [flatten_eq_intercalate (a ++ breaks ++ b), hp, List.map_append, beside]
  -- A part is empty exactly if it has no phrases, and then no space is set for it.
  split
  next ha => rw [flatten_eq_empty_iff.mp ha, List.map_nil, List.nil_append, ← flatten_eq_intercalate]
  next ha =>
    split
    next hb =>
      rw [flatten_eq_empty_iff.mp hb, List.map_nil, List.append_nil, ← flatten_eq_intercalate]
    next hb =>
      rw [flatten_eq_empty_iff] at ha hb
      rw [String.intercalate_append_of_ne_nil (mt List.map_eq_nil_iff.mp ha)
        (mt List.map_eq_nil_iff.mp hb), ← flatten_eq_intercalate, ← flatten_eq_intercalate]

/--
Flattening is a normal form of descriptions. It makes one line of any text, without blanks at its ends and
with all that is seen of the text in its order. The texts in that form are those it leaves alone, among them
its own results. Behind a line break it starts anew, with a space between the parts that are not empty.
-/
theorem flatten_normalizes :
    (∀ text, OneLine (flatten text) ∧ Trimmed (flatten text).toList ∧
      visible (flatten text).toList = visible text.toList ∧ flatten (flatten text) = flatten text) ∧
    (∀ text, flatten text = text ↔ OneLine text ∧ Trimmed text.toList) ∧
    ∀ a b, ∀ lineBreak ∈ ["\n", "\r", "\r\n"],
      flatten (a ++ lineBreak ++ b) = beside (flatten a) (flatten b) := by
  refine ⟨fun text => ?_, fun _ => flatten_eq_self_iff, fun a b lineBreak h => ?_⟩
  · have hl := oneLine_flatten text
    have ht := trimmed_flatten text
    exact ⟨hl, ht, visible_flatten text, flatten_eq_self_iff.mpr ⟨hl, ht⟩⟩
  · have hb : ∀ s ∈ ["\n", "\r", "\r\n"], s ≠ "" ∧ ∀ c ∈ s.toList, isBreak c = true := by
      simp [isBreak]
    obtain ⟨hne, hc⟩ := hb lineBreak h
    exact flatten_append_breaks hne hc a b

/-! A blank line, blanks of other widths at the ends of lines and between words, and a part with nothing to see. -/

theorem flatten_normalizes_remark :
    "\r\n" ∈ ["\n", "\r", "\r\n"] ∧
    flatten (" one\u2003two\u3000\r\r" ++ "\r\n" ++ "\x0b three\u0085") = "one\u2003two three" ∧
    flatten ("\u2028\t" ++ "\r\n" ++ "\x0b three\u0085") = "three" := by
  have h : "\r\n" ∈ ["\n", "\r", "\r\n"] := by decide
  obtain ⟨-, -, hb⟩ := flatten_normalizes
  exact ⟨h, (hb " one\u2003two\u3000\r\r" "\x0b three\u0085" "\r\n" h).trans (by decide),
    (hb "\u2028\t" "\x0b three\u0085" "\r\n" h).trans (by decide)⟩

end Doc
end Ambient
