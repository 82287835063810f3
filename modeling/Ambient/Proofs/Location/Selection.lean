import Ambient.Proofs.Location.Spans

/-!
What the search for a name selects. Its entries behind the owner's first one are counted from the first
to the last, and the span of the selected one holds the name and nothing else.
-/
namespace Ambient
open Text

/-! Places in order. -/

/-- All of these places, from the first to the last. -/
structure InOrder (P : Nat → Prop) (es : List Nat) : Prop where
  increasing : es.Pairwise (· < ·)
  mem_iff : ∀ o, o ∈ es ↔ P o

/-- The place with so many before it, or the first one where there are not so many. -/
def Picked (es : List Nat) (skip o : Nat) : Prop :=
  es[skip]? = some o ∨ es.length ≤ skip ∧ es.head? = some o

theorem picked_iff (es : List Nat) (skip o : Nat) :
    es[skip]?.or es.head? = some o ↔ Picked es skip o := by
  unfold Picked
  rcases Nat.lt_or_ge skip es.length with h | h
  · have hn : ¬ es.length ≤ skip := Nat.not_le.mpr h
    simp [List.getElem?_eq_getElem h, hn]
  · simp [h]

theorem Picked.mem {es : List Nat} {skip o : Nat} (h : Picked es skip o) : o ∈ es := by
  rcases h with h | ⟨-, h⟩
  · exact List.mem_of_getElem? h
  · exact List.mem_of_head? h

/-! Spans. -/

/-- The bytes of the span are those of the text, and it begins and ends between two characters. -/
structure Span.Holds (span : Span) (source text : String) : Prop where
  inBounds : span.offset + span.length ≤ source.utf8ByteSize
  begins : String.Pos.Raw.IsValid source ⟨span.offset⟩
  ends : String.Pos.Raw.IsValid source ⟨span.offset + span.length⟩
  bytes : source.toByteArray.extract span.offset (span.offset + span.length) = text.toByteArray

theorem Span.holds_between (before text after : String) :
    Span.Holds ⟨before.utf8ByteSize, text.utf8ByteSize⟩ (before ++ text ++ after) text where
  inBounds := by
    simp only [String.utf8ByteSize_append]
    omega
  begins := String.Pos.Raw.isValid_iff_exists_append.mpr
    ⟨before, text ++ after, String.append_assoc .., rfl⟩
  ends := by
    refine String.Pos.Raw.isValid_iff_exists_append.mpr ⟨before ++ text, after, rfl, ?_⟩
    simp [String.Pos.Raw.ext_iff]
  bytes := by
    have hb := @ByteArray.extract_append_size_add before.toByteArray (text ++ after).toByteArray 0
      text.utf8ByteSize
    rw [String.size_toByteArray, Nat.add_zero, ← String.toByteArray_append,
      ← String.append_assoc] at hb
    rw [hb, String.toByteArray_append]
    exact ByteArray.extract_append_eq_left String.size_toByteArray.symm

theorem byteSize_toList (s : String) : byteSize s.toList = s.utf8ByteSize := by
  have h : ∀ cs : List Char, byteSize cs = (String.ofList cs).utf8ByteSize := by
    intro cs
    induction cs with
    | nil => rfl
    | cons c cs ih => rw [byteSize, ih, String.ofList_cons, String.utf8ByteSize_append,
        String.utf8ByteSize_singleton]
  rw [h, String.ofList_toList]

namespace Source

variable {source name : String} {o : Nat}

/-- What the span of an entry holds: an empty name has nothing but its quotes. -/
def shownName (name : String) : String := if name = "" then "\"\"" else name

theorem NamedAt.holds (h : NamedAt source name o) :
    (spanOfEntry name o).Holds source (shownName name) := by
  obtain ⟨before, after, hs, -, ho⟩ := h
  have hsize : o = (String.ofList before).utf8ByteSize := by
    rw [← ho, ← byteSize_toList, String.toList_ofList]
  unfold spanOfEntry shownName
  by_cases hn : name = ""
  · have hsource : source = String.ofList before ++ "\"\"" ++ String.ofList after := by
      rw [← String.toList_inj, hs]
      simp [hn]
    rw [if_pos (String.isEmpty_iff.mpr hn), if_pos hn, hsource, hsize]
    exact Span.holds_between (String.ofList before) "\"\"" (String.ofList after)
  · have hsource : source = String.ofList (before ++ ['"']) ++ name ++ String.ofList ('"' :: after) := by
      rw [← String.toList_inj, hs]
      simp
    have hquote : o + 1 = (String.ofList (before ++ ['"'])).utf8ByteSize := by
      rw [hsize, String.ofList_append, String.utf8ByteSize_append]
      rfl
    rw [if_neg (mt String.isEmpty_iff.mp hn), if_neg hn, hsource, hquote]
    exact Span.holds_between _ name _

/-- Two entries share no character: the later one begins behind the closing quote of the other. -/
theorem NamedAt.le_of_lt {owner : String} {q : Nat} (hs : Searchable owner)
    (hq : NamedAt source owner q) (ho : NamedAt source name o) (h : q < o) :
    q + owner.utf8ByteSize + 2 ≤ o := by
  obtain ⟨before, after, hb, -, rfl⟩ := hq
  obtain ⟨before', after', hb', hk, rfl⟩ := ho
  rw [hb, List.append_assoc, List.append_assoc] at hb'
  rcases List.append_eq_append_iff.mp hb' with ⟨mid, rfl, hm⟩ | ⟨mid, rfl, -⟩
  · cases mid with
    | nil => simp at h
    | cons c mid =>
      simp only [List.cons_append, List.cons.injEq] at hm
      obtain ⟨rfl, hm⟩ := hm
      -- No key ends with the owner's name, so its closing quote stands before the later entry too.
      rcases List.append_eq_append_iff.mp hm with ⟨rest, rfl, hr⟩ | ⟨rest, hn, hr⟩
      · cases rest with
        | nil =>
          rw [List.append_nil] at hk
          exact absurd hk (hs.not_endsInKey before)
        | cons c rest =>
          obtain ⟨rfl, -⟩ := List.cons.inj hr
          have hquote : '"'.utf8Size = 1 := rfl
          simp only [byteSize_append, byteSize, byteSize_toList, hquote]
          omega
      · cases rest with
        | nil =>
          rw [List.append_nil] at hn
          exact absurd (hn ▸ hk) (hs.not_endsInKey before)
        | cons c rest =>
          obtain ⟨rfl, -⟩ := List.cons.inj hr
          exact absurd (by simp [hn]) hs.quote
  · rw [byteSize_append] at h
    omega

/--
The search for a name knows all of its entries behind the owner's first one, without a gap where matches
overlap. It takes the one with `skip` of them before it, or the first if there are not so many, and
answers with the place of the name in it, which is not in the owner's own entry.
-/
theorem nameSpan_selects {owner : Option String} (hn : Searchable name)
    (ho : ∀ n ∈ owner, Searchable n) (skip : Nat) :
    (nameSpan source name owner skip = none ↔ ∀ o, ¬ EntryBehind source owner name o) ∧
    ∃ es, InOrder (EntryBehind source owner name) es ∧
      ∀ span, nameSpan source name owner skip = some span →
        ∃ o, Picked es skip o ∧ span.offset = (if name = "" then o else o + 1) ∧
          span.Holds source (shownName name) ∧
          ∀ n ∈ owner, ∀ q, IsFirst (NamedAt source n) q → q + n.utf8ByteSize + 2 ≤ span.offset := by
  obtain ⟨hsorted, hmem⟩ := @entries_behind source name owner hn ho
  refine ⟨nameSpan_eq_none_iff hn ho skip, _, ⟨hsorted, hmem⟩, fun span hspan => ?_⟩
  obtain ⟨o, hpick, rfl⟩ := Option.map_eq_some_iff.mp hspan
  have hpick := (picked_iff _ skip o).mp hpick
  obtain ⟨hentry, hbehind⟩ := (hmem o).mp hpick.mem
  have hoffset : (spanOfEntry name o).offset = if name = "" then o else o + 1 := by
    simp only [spanOfEntry, String.isEmpty_iff]
    split <;> rfl
  refine ⟨o, hpick, hoffset, hentry.holds, fun n hn' q hq => ?_⟩
  have hle := hq.1.le_of_lt (ho n hn') hentry (hbehind n hn' q hq)
  rw [hoffset]
  split <;> omega

/-! A function whose parameters have its own name, of two bytes. -/

namespace Nested

def opening : String := "[[functions]]\nname = \"é\"\nparams = [\x7b name = \"é\" \x7d, \x7b name = "

def text : String := opening ++ "\"é\" \x7d]\n"

theorem nameSpan_selects_nested :
    Searchable "é" ∧ (∀ n ∈ some "é", Searchable n) ∧
      nameSpan text "é" (some "é") 1 = some ⟨opening.utf8ByteSize + 1, 2⟩ ∧
      Span.Holds ⟨opening.utf8ByteSize + 1, 2⟩ text "é" ∧
      ∀ q, IsFirst (NamedAt text "é") q → q + 4 ≤ opening.utf8ByteSize + 1 := by
  have hn : Searchable "é" := by decide
  have ho : ∀ n ∈ some "é", Searchable n := by
    rintro n ⟨rfl⟩
    exact hn
  have hspan : nameSpan text "é" (some "é") 1 = some ⟨opening.utf8ByteSize + 1, 2⟩ := by
    decide +kernel
  obtain ⟨-, es, -, hfound⟩ := @nameSpan_selects text "é" (some "é") hn ho 1
  obtain ⟨o, -, -, hholds, hbehind⟩ := hfound _ hspan
  exact ⟨hn, ho, hspan, hholds, hbehind "é" rfl⟩

end Nested

end Source
end Ambient
