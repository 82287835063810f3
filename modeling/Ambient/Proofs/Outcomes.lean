import Ambient.File
import Mathlib.Data.List.Forall2

/-!
Computations that can fail. A step after a step has a result when both have one, and a walk over a list
when every item has one. So a namespace has a text when its members have, and a file when its
declarations have.
-/
namespace Ambient

section Outcomes

variable {ε α β γ : Type}

theorem toOption_eq_some_iff {x : Except ε α} {a : α} : x.toOption = some a ↔ x = .ok a := by
  cases x <;> simp [Except.toOption]

theorem toOption_map (f : α → β) (x : Except ε α) : (f <$> x).toOption = x.toOption.map f := by
  cases x <;> rfl

/-- Two outcomes with the same result, or both without one. -/
theorem toOption_eq_iff {ε' : Type} {x : Except ε α} {y : Except ε' α} :
    x.toOption = y.toOption ↔ ∀ a, x = .ok a ↔ y = .ok a := by
  rw [Option.ext_iff]
  exact forall_congr' fun a => by rw [toOption_eq_some_iff, toOption_eq_some_iff]

theorem bind_eq_ok_iff {x : Except ε α} {f : α → Except ε β} {b : β} :
    (x >>= f) = .ok b ↔ ∃ a, x = .ok a ∧ f a = .ok b := by
  cases x <;> simp [bind, Except.bind]

theorem map_eq_ok_iff {f : α → β} {x : Except ε α} {b : β} :
    f <$> x = .ok b ↔ ∃ a, x = .ok a ∧ f a = b := by
  cases x <;> simp [Functor.map, Except.map]

theorem exists_map_eq_ok_iff {f : α → β} {x : Except ε α} :
    (∃ b, f <$> x = .ok b) ↔ ∃ a, x = .ok a := by
  simp only [map_eq_ok_iff]
  exact ⟨fun ⟨_, a, h, _⟩ => ⟨a, h⟩, fun ⟨a, h⟩ => ⟨f a, a, h, rfl⟩⟩

variable {f : α → Except ε β} {xs : List α} {ys : List β}

/-- The results of a walk are the results of the items, in their order. -/
theorem mapM_eq_ok_iff : xs.mapM f = .ok ys ↔ List.Forall₂ (fun x y => f x = .ok y) xs ys := by
  induction xs generalizing ys with
  | nil => simp [pure, Except.pure, eq_comm]
  | cons x xs ih =>
    simp only [List.mapM_cons, bind_eq_ok_iff, ih, List.forall₂_cons_left_iff]
    constructor
    · rintro ⟨y, hy, zs, hzs, h⟩
      exact ⟨y, zs, hy, hzs, (Except.ok.inj h).symm⟩
    · rintro ⟨y, zs, hy, hzs, rfl⟩
      exact ⟨y, hy, zs, hzs, rfl⟩

theorem exists_mapM_eq_ok_iff : (∃ ys, xs.mapM f = .ok ys) ↔ ∀ x ∈ xs, ∃ y, f x = .ok y := by
  simp only [mapM_eq_ok_iff]
  induction xs with
  | nil => simp
  | cons x xs ih => simp [List.forall₂_cons_left_iff, ← ih]

/-- Walks whose items have related results have related results themselves. -/
theorem exists_mapM_related {g : α → Except ε γ} {R : β → γ → Prop}
    (h : ∀ x ∈ xs, ∃ y z, f x = .ok y ∧ g x = .ok z ∧ R y z) :
    ∃ ys zs, xs.mapM f = .ok ys ∧ xs.mapM g = .ok zs ∧ List.Forall₂ R ys zs := by
  simp only [mapM_eq_ok_iff]
  induction xs with
  | nil => exact ⟨[], [], .nil, .nil, .nil⟩
  | cons x xs ih =>
    rw [List.forall_mem_cons] at h
    obtain ⟨⟨y, z, hf, hg, hr⟩, hxs⟩ := h
    obtain ⟨ys, zs, hfs, hgs, hrs⟩ := ih hxs
    exact ⟨y :: ys, z :: zs, .cons hf hfs, .cons hg hgs, .cons hr hrs⟩

end Outcomes

/-! Namespaces and files. -/

/-- The members of a namespace that nobody is changing are read one after the other. -/
theorem Namespace.render_eq (n : Namespace) (d : Dialect) (scope : Scope) :
    n.render d scope = (fun texts => Writer.render d (layout n.name d scope texts)) <$>
      n.members.mapM (Member.render d .inNamespace) := by
  rw [render, renderSights, sights, List.mapM_map, map_eq_pure_bind]
  rfl

theorem Namespace.render_of_mapM {n : Namespace} {d : Dialect} {texts : List String}
    (h : n.members.mapM (Member.render d .inNamespace) = .ok texts) (scope : Scope) :
    n.render d scope = .ok (Writer.render d (layout n.name d scope texts)) := by
  rw [n.render_eq, h]
  rfl

theorem File.render_eq (f : File) (d : Dialect) :
    f.render d = (fun sections => joined (preamble d ++ sections)) <$>
      f.declarations.mapM (Declaration.render d) := by
  rw [render, map_eq_pure_bind]

theorem File.render_of_mapM {f : File} {d : Dialect} {sections : List String}
    (h : f.declarations.mapM (Declaration.render d) = .ok sections) :
    f.render d = .ok (joined (preamble d ++ sections)) := by
  rw [f.render_eq, h]
  rfl

theorem File.joined_cons_cons (s t : String) (ts : List String) :
    File.joined (s :: t :: ts) = s ++ "\n\n" ++ File.joined (t :: ts) := by
  simp only [File.joined, String.intercalate_cons_cons, String.append_assoc]

end Ambient
