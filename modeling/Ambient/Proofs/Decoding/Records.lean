import Ambient.Manifest.Decode
import Ambient.Proofs.Outcomes
import Mathlib.Data.List.Nodup
import Mathlib.Data.List.Pairwise
import Mathlib.Data.List.Perm.Basic
import Mathlib.Tactic.Tauto

/-!
What it takes to read a record from a table: every key is the key of a field, none stands there
twice, no required one is missing, and each value can be read. Fields that set different parts of a
record can be filled in any order.
-/
namespace Ambient.Manifest

/-- A list is read from a sequence, item by item. -/
theorem readList_eq_ok_iff {α : Type} {read : Reader α} {n : Node} {xs : List α} :
    readList read n = .ok xs ↔
      ∃ items, n = .sequence items none ∧ List.Forall₂ (fun m x => read m = .ok x) items xs := by
  cases n with
  | sequence items closing =>
    have hr : readList read (.sequence items closing) =
        (items.mapM read >>= fun xs => failIf closing >>= fun _ => .ok xs) := rfl
    simp only [hr, ← mapM_eq_ok_iff]
    cases closing <;> cases h : items.mapM read <;> simp [failIf, bind, Except.bind, h]
  | _ => simp [readList]

theorem readText_eq_ok_iff {n : Node} {s : String} : readText n = .ok s ↔ n = .text s := by
  cases n <;> simp [readText]

theorem readFlag_eq_ok_iff {n : Node} {b : Bool} : readFlag n = .ok b ↔ n = .boolean b := by
  cases n <;> simp [readFlag]

theorem readType_eq_ok_iff {n : Node} {t : TypeRef} :
    readType n = .ok t ↔ ∃ s, n = .text s ∧ .named s = t := by
  have hr : readType n = TypeRef.named <$> readText n := rfl
  simp only [hr, map_eq_ok_iff, readText_eq_ok_iff]

/-- Null stands for what is missing; all else is read as what is there. -/
theorem readOptional_eq_ok_iff {α : Type} {read : Reader α} {n : Node} {x : Option α} :
    readOptional read n = .ok x ↔ (n = .null ∧ x = none) ∨
      (n ≠ .null ∧ (∀ p, n ≠ .broken .null p) ∧ ∃ y, read n = .ok y ∧ some y = x) := by
  unfold readOptional
  split
  · simp [eq_comm]
  · simp
  · simp_all [map_eq_ok_iff]

namespace Entry

/-- The key of an entry; in the place of a key that is no text stands the empty one. -/
def name : Entry → String
  | .mk (.named key) _ => key
  | .mk (.odd _) _ => ""

def value : Entry → Node
  | .mk _ n => n

end Entry

variable {σ : Type}

/-! Filling in fields. -/

/-- Either field can be filled in first. -/
def Slot.Commute (a b : Slot σ) : Prop := ∀ m n r,
  ((a.fill m r).toOption.bind fun r => (b.fill n r).toOption) =
    (b.fill n r).toOption.bind fun r => (a.fill m r).toOption

instance : Std.Symm (Slot.Commute (σ := σ)) where
  symm _ _ h m n r := (h n m r).symm

/-- Fields that set different parts of a record commute. -/
@[simp] theorem Slot.commute_of_set {α β : Type} {k l : String} {required required' : Bool}
    {read : Reader α} {read' : Reader β} {set : α → σ → σ} {set' : β → σ → σ}
    (h : ∀ x y r, set x (set' y r) = set' y (set x r)) :
    Slot.Commute ⟨k, fun n r => (set · r) <$> read n, required⟩
      ⟨l, fun n r => (set' · r) <$> read' n, required'⟩ := by
  intro m n r
  simp only [toOption_map]
  cases (read m).toOption <;> cases (read' n).toOption <;> simp [h]

namespace Schema

def Commutes (s : Schema σ) : Prop := s.slots.Pairwise Slot.Commute

theorem mem_slots_of_slot? {s : Schema σ} {key : String} {slot : Slot σ}
    (h : s.slot? key = some slot) : slot ∈ s.slots ∧ slot.key = key :=
  ⟨List.mem_of_find?_eq_some h, by simpa using List.find?_some h⟩

theorem slot?_isSome_iff {s : Schema σ} {key : String} : (s.slot? key).isSome ↔ key ∈ s.keys := by
  simp [slot?, keys]

theorem Commutes.slots {s : Schema σ} (h : s.Commutes) {k l : String} {a b : Slot σ}
    (ha : s.slot? k = some a) (hb : s.slot? l = some b) (hkl : k ≠ l) : a.Commute b := by
  obtain ⟨hma, rfl⟩ := mem_slots_of_slot? ha
  obtain ⟨hmb, rfl⟩ := mem_slots_of_slot? hb
  exact h.forall hma hmb fun he => hkl (congrArg Slot.key he)

/-- The record with an entry filled in. -/
def enter (s : Schema σ) (r : σ) : Entry → Option σ
  | .mk (.named key) n => (s.slot? key).bind fun slot => (slot.fill n r).toOption
  | .mk (.odd _) _ => none

/-- The record with entries filled in one after the other. -/
def enterAll (s : Schema σ) (r : Option σ) (es : List Entry) : Option σ :=
  es.foldl (fun r e => r.bind fun r => s.enter r e) r

variable {s : Schema σ}

@[simp] theorem enterAll_nil (r : Option σ) : s.enterAll r [] = r := rfl

@[simp] theorem enterAll_cons (r : Option σ) (e : Entry) (es : List Entry) :
    s.enterAll r (e :: es) = s.enterAll (r.bind fun r => s.enter r e) es := rfl

@[simp] theorem enterAll_none (es : List Entry) : s.enterAll none es = none := by
  induction es with
  | nil => rfl
  | cons e es ih => exact ih

theorem enterAll_append (r : Option σ) (es fs : List Entry) :
    s.enterAll r (es ++ fs) = s.enterAll (s.enterAll r es) fs := List.foldl_append

/-- An entry that can be filled in has the key of a field. -/
theorem exists_slot_of_enter {e : Entry} {r r' : σ} (h : s.enter r e = some r') :
    ∃ slot, s.slot? e.name = some slot ∧ e = .mk (.named e.name) e.value ∧
      slot.fill e.value r = .ok r' := by
  rcases e with ⟨key | p, n⟩
  · obtain ⟨slot, hslot, hfill⟩ := Option.bind_eq_some_iff.mp h
    exact ⟨slot, hslot, rfl, toOption_eq_some_iff.mp hfill⟩
  · cases h

/-- When all entries are filled in, each one is at some point. -/
theorem exists_enter_of_enterAll {es : List Entry} {r r' : σ} (h : s.enterAll (some r) es = some r')
    {e : Entry} (he : e ∈ es) : ∃ r₁ r₂, s.enter r₁ e = some r₂ := by
  obtain ⟨fs, gs, rfl⟩ := List.append_of_mem he
  rw [enterAll_append, enterAll_cons] at h
  cases hr : (s.enterAll (some r) fs).bind fun r => s.enter r e with
  | none =>
    rw [hr, enterAll_none] at h
    cases h
  | some r₂ =>
    obtain ⟨r₁, -, hr₂⟩ := Option.bind_eq_some_iff.mp hr
    exact ⟨r₁, r₂, hr₂⟩

/-- An entry can be replaced by one that fills in the same. -/
theorem enterAll_replace {e e' : Entry} (h : ∀ r r', s.enter r e = some r' → s.enter r e' = some r')
    {es fs : List Entry} {r : Option σ} {r' : σ} (hr : s.enterAll r (es ++ e :: fs) = some r') :
    s.enterAll r (es ++ e' :: fs) = some r' := by
  rw [enterAll_append, enterAll_cons] at hr ⊢
  cases hr₂ : (s.enterAll r es).bind fun r => s.enter r e with
  | none =>
    rw [hr₂, enterAll_none] at hr
    cases hr
  | some r₂ =>
    obtain ⟨r₁, hr₁, he⟩ := Option.bind_eq_some_iff.mp hr₂
    rwa [hr₁, Option.bind_some, h r₁ r₂ he, ← hr₂]

/-- Entries are read to the end when they can all be filled in and no key comes again. -/
theorem readEntries_eq_ok_iff {closing : Option Problem} {seen : List String} {r : σ}
    {es : List Entry} {seen' : List String} {r' : σ} :
    s.readEntries closing seen r es = .ok (seen', r') ↔
      closing = none ∧ (es.map Entry.name).Nodup ∧ (∀ e ∈ es, e.name ∉ seen) ∧
        s.enterAll (some r) es = some r' ∧ seen' = (es.map Entry.name).reverse ++ seen := by
  induction es generalizing seen r with
  | nil =>
    have hr : s.readEntries closing seen r [] = (failIf closing >>= fun _ => .ok (seen, r)) := rfl
    rw [hr]
    cases closing with
    | some p => simp [failIf, bind, Except.bind]
    | none => simp [failIf, bind, Except.bind, eq_comm, and_comm]
  | cons e es ih =>
    rcases e with ⟨key | p, n⟩
    · have henter : s.enter r (.mk (.named key) n) =
          (s.slot? key).bind fun slot => (slot.fill n r).toOption := rfl
      simp only [readEntries, enterAll_cons, Option.bind_some, henter]
      cases s.slot? key with
      | none => simp
      | some slot =>
        by_cases hm : key ∈ seen
        · simp [hm, Entry.name]
        · cases hf : slot.fill n r with
          | error p => simp [hm, hf, bind, Except.bind, Except.toOption]
          | ok r₁ =>
            have hnotin : (∀ e ∈ es, e.name ∉ key :: seen) ↔
                key ∉ es.map Entry.name ∧ ∀ e ∈ es, e.name ∉ seen := by
              simp only [List.mem_cons, not_or, List.mem_map, not_exists, not_and]
              exact ⟨fun h => ⟨fun e he => (h e he).1, fun e he => (h e he).2⟩,
                fun h e he => ⟨h.1 e he, h.2 e he⟩⟩
            have hstep := @ih (key :: seen) r₁
            rw [hnotin] at hstep
            simp only [hm, hf, bind, Except.bind, Except.toOption, ↓reduceIte, hstep,
              Option.bind_some, List.map_cons, Entry.name, List.nodup_cons, List.forall_mem_cons,
              not_false_eq_true, true_and, List.reverse_cons, List.append_assoc,
              List.singleton_append]
            tauto
    · simp [readEntries, enter]

theorem missing?_eq_none_iff {seen : List String} :
    s.missing? seen = none ↔ ∀ slot ∈ s.slots, slot.required → slot.key ∈ seen := by
  simp [missing?]

/-- What it takes to read a record from a table. -/
theorem readTable_eq_ok_iff {es : List Entry} {closing : Option Problem} {r : σ} :
    s.readTable es closing = .ok r ↔
      closing = none ∧ (es.map Entry.name).Nodup ∧ s.enterAll (some s.blank) es = some r ∧
        ∀ slot ∈ s.slots, slot.required → slot.key ∈ es.map Entry.name := by
  rw [readTable, bind_eq_ok_iff]
  constructor
  · rintro ⟨⟨seen, r₁⟩, hread, h⟩
    obtain ⟨hc, hn, -, he, rfl⟩ := readEntries_eq_ok_iff.mp hread
    cases hm : s.missing? ((es.map Entry.name).reverse ++ []) with
    | some key => simp only [hm, reduceCtorEq] at h
    | none =>
      simp only [hm] at h
      obtain rfl := Except.ok.inj h
      exact ⟨hc, hn, he, by simpa using missing?_eq_none_iff.mp hm⟩
  · rintro ⟨hc, hn, he, hall⟩
    have hm : s.missing? ((es.map Entry.name).reverse ++ []) = none :=
      missing?_eq_none_iff.mpr (by simpa using hall)
    refine ⟨_, readEntries_eq_ok_iff.mpr ⟨hc, hn, fun _ _ => List.not_mem_nil, he, rfl⟩, ?_⟩
    simp only [hm]

/-! The order of the entries. -/

theorem enter_comm (h : s.Commutes) {e f : Entry} (hne : e.name ≠ f.name) (r : Option σ) :
    ((r.bind fun r => s.enter r e).bind fun r => s.enter r f) =
      (r.bind fun r => s.enter r f).bind fun r => s.enter r e := by
  cases r with
  | none => rfl
  | some r =>
    rcases e with ⟨k | p, m⟩ <;> rcases f with ⟨l | q, n⟩
    · simp only [Option.bind_some, enter]
      cases ha : s.slot? k with
      | none => cases s.slot? l <;> simp
      | some a =>
        cases hb : s.slot? l with
        | none => simp
        | some b => exact h.slots ha hb hne m n r
    all_goals simp [enter]

theorem enterAll_perm (h : s.Commutes) {es fs : List Entry} (hp : es.Perm fs)
    (hn : (es.map Entry.name).Nodup) (r : Option σ) : s.enterAll r es = s.enterAll r fs := by
  refine hp.foldl_eq' (fun e he f hf r => ?_) r
  by_cases hef : e.name = f.name
  · rw [List.inj_on_of_nodup_map hn he hf hef]
  · exact enter_comm h hef r

/-- A table reads as the same record whatever the order of its entries. -/
theorem readTable_perm (h : s.Commutes) {es fs : List Entry} (hp : es.Perm fs)
    (closing : Option Problem) :
    (s.readTable es closing).toOption = (s.readTable fs closing).toOption := by
  refine toOption_eq_iff.mpr fun r => ?_
  rw [readTable_eq_ok_iff, readTable_eq_ok_iff]
  have hnames := hp.map Entry.name
  simp only [hnames.mem_iff, hnames.nodup_iff]
  refine and_congr_right fun _ => and_congr_right fun hn => ?_
  rw [enterAll_perm h hp (hnames.nodup_iff.mpr hn)]

end Schema
end Ambient.Manifest
