/-! Texts in which a pattern does not occur. -/
namespace Ambient

/-- What begins a text and misses a character of it ends before that character. -/
theorem prefix_of_prefix_append_cons {p s t : List Char} {c : Char} (h : p <+: s ++ c :: t)
    (hc : c ∉ p) : p <+: s := by
  induction s generalizing p with
  | nil =>
    cases p with
    | nil => exact List.prefix_rfl
    | cons a p => exact absurd ((List.cons_prefix_cons.mp h).1 ▸ List.mem_cons_self) hc
  | cons b s ih =>
    cases p with
    | nil => exact List.nil_prefix
    | cons a p =>
      obtain ⟨rfl, hp⟩ := List.cons_prefix_cons.mp h
      exact List.cons_prefix_cons.mpr ⟨rfl, ih hp fun hm => hc (List.mem_cons_of_mem a hm)⟩

def Avoids (pattern s : List Char) : Prop := ¬ pattern <:+: s

namespace Avoids

variable {pattern s t : List Char} {c : Char}

theorem nil (h : pattern ≠ []) : Avoids pattern [] := fun hi => h (List.infix_nil.mp hi)

theorem of_infix (h : Avoids pattern t) (hs : s <:+: t) : Avoids pattern s :=
  fun hi => h (hi.trans hs)

theorem cons_iff : Avoids pattern (c :: s) ↔ ¬ pattern <+: c :: s ∧ Avoids pattern s := by
  rw [Avoids, List.infix_cons_iff, not_or, Avoids]

/-- A character that is not in the pattern divides the text. -/
theorem append_cons_iff (hp : pattern ≠ []) (hc : c ∉ pattern) :
    Avoids pattern (s ++ c :: t) ↔ Avoids pattern s ∧ Avoids pattern t := by
  induction s with
  | nil =>
    have h : ¬ pattern <+: c :: t := fun h =>
      hp (List.prefix_nil.mp (prefix_of_prefix_append_cons (s := []) h hc))
    rw [List.nil_append, cons_iff]
    exact ⟨fun ht => ⟨nil hp, ht.2⟩, fun ht => ⟨h, ht.2⟩⟩
  | cons a s ih =>
    have h : pattern <+: a :: (s ++ c :: t) ↔ pattern <+: a :: s :=
      ⟨fun h => prefix_of_prefix_append_cons (s := a :: s) h hc,
        fun h => h.trans (List.prefix_append (a :: s) (c :: t))⟩
    rw [List.cons_append, cons_iff, cons_iff, ih, h, and_assoc]

theorem cons_iff_of_not_mem (hp : pattern ≠ []) (hc : c ∉ pattern) :
    Avoids pattern (c :: s) ↔ Avoids pattern s := by
  have h := append_cons_iff (s := []) (t := s) hp hc
  rw [List.nil_append] at h
  rw [h]
  exact and_iff_right (nil hp)

theorem append_iff_of_not_mem (hp : pattern ≠ []) (h : ∀ c ∈ s, c ∉ pattern) :
    Avoids pattern (s ++ t) ↔ Avoids pattern t := by
  induction s with
  | nil => rfl
  | cons c s ih =>
    rw [List.forall_mem_cons] at h
    rw [List.cons_append, cons_iff_of_not_mem hp h.1, ih h.2]

theorem of_not_mem (hp : pattern ≠ []) (h : ∀ c ∈ s, c ∉ pattern) : Avoids pattern s := by
  have ha := (append_iff_of_not_mem (t := []) hp h).mpr (nil hp)
  rwa [List.append_nil] at ha

end Avoids
end Ambient
