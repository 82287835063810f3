import Ambient.File
import Ambient.Proofs.Description.Blocks

/-! Declarations in whose names, types and values no block opens, and their lines. -/
namespace Ambient
open Doc Text

/-- A text in which no block opens. -/
def Blockless (s : String) : Prop := Avoids opening s.toList

instance (s : String) : Decidable (Blockless s) :=
  inferInstanceAs (Decidable (¬ opening <:+: s.toList))

/-! A character that the pattern does not have divides a text. -/

@[simp] theorem avoids_opening_nil : Avoids opening [] := opening_isMark.avoids_nil

@[simp] theorem avoids_opening_cons {c : Char} (h : c ∉ opening) (s : List Char) :
    Avoids opening (c :: s) ↔ Avoids opening s := Avoids.cons_iff_of_not_mem opening_isMark.ne_nil h

@[simp] theorem avoids_opening_append_cons {c : Char} (h : c ∉ opening) (s t : List Char) :
    Avoids opening (s ++ c :: t) ↔ Avoids opening s ∧ Avoids opening t :=
  Avoids.append_cons_iff opening_isMark.ne_nil h

/-! Numerals and literals. -/

theorem isDigit_of_mem_opening : ∀ c ∈ opening, c.isDigit = false := by simp [opening]

theorem blockless_repr (n : Int) : Blockless n.repr := by
  have hd : ∀ (k : Nat) (c : Char), c ∈ Nat.toDigits 10 k → c ∉ opening := by
    intro k c hc hm
    have hk := Nat.isDigit_of_mem_toDigits (by decide) (by decide) hc
    rw [isDigit_of_mem_opening c hm] at hk
    cases hk
  rw [Int.repr_eq_if, Blockless]
  split
  · rw [Nat.toList_repr]
    exact Avoids.of_not_mem opening_isMark.ne_nil (hd _)
  · rw [String.toList_append, Nat.toList_repr]
    have hm : ∀ c ∈ "-".toList, c ∉ opening := by simp [opening]
    exact (Avoids.append_iff_of_not_mem opening_isMark.ne_nil hm).mpr
      (Avoids.of_not_mem opening_isMark.ne_nil (hd _))

theorem not_mem_opening_of_hexadecimal {n k : Nat} {c : Char}
    (h : c ∈ Literal.hexadecimalDigits n k) : c ∉ opening := by
  induction n generalizing k with
  | zero => simp [Literal.hexadecimalDigits] at h
  | succ n ih =>
    rw [Literal.hexadecimalDigits, List.mem_append, List.mem_singleton] at h
    rcases h with h | rfl
    · exact ih h
    · have hd : ∀ i < 16, Nat.digitChar i ∉ opening := by decide
      exact hd (k % 16) (Nat.mod_lt k (by decide))

/-- A character stands for itself, or for an escape without a part of the pattern. -/
theorem escape_typeScript (c : Char) :
    Literal.escape .typeScript c = [c] ∨
      ∃ cs, Literal.escape .typeScript c = '\\' :: cs ∧ ∀ x ∈ cs, x ∉ opening := by
  change Literal.typeScriptChar c = [c] ∨
    ∃ cs, Literal.typeScriptChar c = '\\' :: cs ∧ ∀ x ∈ cs, x ∉ opening
  fun_cases Literal.typeScriptChar c with
  | case1 | case2 | case3 | case4 | case5 | case6 | case7 => exact Or.inr ⟨_, rfl, by simp [opening]⟩
  | case8 =>
    refine Or.inr ⟨_, rfl, ?_⟩
    rw [List.forall_mem_cons]
    exact ⟨by decide, fun x hx => not_mem_opening_of_hexadecimal hx⟩
  | case9 => exact Or.inl rfl

theorem prefix_of_prefix_body {p s : List Char} (hp : ∀ c ∈ p, c ∈ opening)
    (h : p <+: Literal.body .typeScript s) : p <+: s := by
  induction s generalizing p with
  | nil => exact h
  | cons c s ih =>
    cases p with
    | nil => exact List.nil_prefix
    | cons a p =>
      rw [List.forall_mem_cons] at hp
      rw [Literal.body, List.flatMap_cons] at h
      rcases escape_typeScript c with hc | ⟨cs, hc, -⟩
      · rw [hc, List.singleton_append, List.cons_prefix_cons] at h
        exact List.cons_prefix_cons.mpr ⟨h.1, ih hp.2 h.2⟩
      · -- An escape begins with a backslash, which is no part of the pattern.
        rw [hc, List.cons_append, List.cons_prefix_cons] at h
        exact absurd (h.1 ▸ hp.1) (by decide)

theorem avoids_body {s : List Char} (h : Avoids opening s) :
    Avoids opening (Literal.body .typeScript s) := by
  induction s with
  | nil => exact h
  | cons c s ih =>
    obtain ⟨hp, hs⟩ := Avoids.cons_iff.mp h
    have hb := ih hs
    have he : Literal.body .typeScript (c :: s) =
        Literal.escape .typeScript c ++ Literal.body .typeScript s := List.flatMap_cons
    rcases escape_typeScript c with hc | ⟨cs, hc, hcs⟩
    · have ho : ¬ opening <+: Literal.body .typeScript (c :: s) := fun ho =>
        hp (prefix_of_prefix_body (fun c hc => hc) ho)
      rw [he, hc, List.singleton_append] at ho ⊢
      exact Avoids.cons_iff.mpr ⟨ho, hb⟩
    · rw [he, hc, List.cons_append, avoids_opening_cons (by decide),
        Avoids.append_iff_of_not_mem opening_isMark.ne_nil hcs]
      exact hb

theorem blockless_literal {s : String} (h : Blockless s) :
    Blockless (Literal.string .typeScript s) := by
  rw [Blockless, Literal.string, String.toList_ofList, Literal.quote, List.cons_append,
    avoids_opening_cons (by decide), avoids_opening_append_cons (by decide)]
  exact ⟨avoids_body h, avoids_opening_nil⟩

theorem blockless_key {name : String} (h : Blockless name) :
    Blockless (Enum.key .typeScript name) := by
  rw [Enum.key]
  split
  · exact h
  · exact blockless_literal h

/-! Declarations: no block opens in a name, a spelling of a type, a parent or a value. -/

structure Alias.Plain (a : Alias) : Prop where
  name : Blockless a.name
  type : Blockless (a.type.spelling .typeScript)

structure Variable.Plain (v : Variable) : Prop where
  name : Blockless v.name
  type : Blockless (v.type.spelling .typeScript)
  value : ∀ x ∈ v.value, Blockless (x.literal .typeScript)

structure Field.Plain (f : Field) : Prop where
  name : Blockless f.name
  type : Blockless (TypeRef.spellingOrAny f.type .typeScript)

structure Class.Plain (c : Class) : Prop where
  name : Blockless c.name
  parent : ∀ p ∈ c.parent, Blockless p
  fields : ∀ f ∈ c.fields, f.Plain

structure EnumMember.Plain (m : EnumMember) : Prop where
  name : Blockless m.name
  value : ∀ x ∈ m.value, Blockless (x.literal .typeScript)

structure Enum.Plain (e : Enum) : Prop where
  name : Blockless e.name
  members : ∀ m ∈ e.members, m.Plain

structure Namespace.Plain (n : Namespace) : Prop where
  name : Blockless n.name
  classes : ∀ c ∈ n.classes, c.Plain
  enums : ∀ e ∈ n.enums, e.Plain
  vars : ∀ v ∈ n.vars, v.Plain

structure File.Plain (f : File) : Prop where
  types : ∀ a ∈ f.types, a.Plain
  enums : ∀ e ∈ f.enums, e.Plain
  classes : ∀ c ∈ f.classes, c.Plain
  vars : ∀ v ∈ f.vars, v.Plain
  namespaces : ∀ n ∈ f.namespaces, n.Plain

/-! Lines. -/

theorem Alias.Plain.line {a : Alias} (h : a.Plain) (scope : Scope) :
    Blockless (a.line .typeScript scope) := by
  obtain ⟨hn, ht⟩ := h
  unfold Blockless at *
  cases scope <;> simp (disch := decide) [Alias.line, Scope.declare, hn, ht]

theorem Variable.Plain.line {v : Variable} (h : v.Plain) (scope : Scope) :
    Blockless (scope.declare ++ v.keyword ++ " " ++ v.name ++ ": " ++ v.type.spelling .typeScript ++
      " = " ++ Value.literalOrUnset .typeScript v.value ++ ";") := by
  obtain ⟨hn, ht, hv⟩ := h
  have hl : Blockless (Value.literalOrUnset .typeScript v.value) := by
    cases hx : v.value with
    | none => simp (disch := decide) [Blockless, Value.literalOrUnset, Value.unset]
    | some x => exact hv x hx
  unfold Blockless at *
  cases scope <;> cases hc : v.constant <;>
    simp (disch := decide) [Variable.keyword, Scope.declare, hc, hn, ht, hl]

theorem Field.Plain.declaration {f : Field} (h : f.Plain) : Blockless f.declaration := by
  obtain ⟨hn, ht⟩ := h
  unfold Blockless at *
  cases ho : f.optional <;> simp (disch := decide) [Field.declaration, optionalMark, ho, hn, ht]

theorem Class.Plain.header {c : Class} (h : c.Plain) (scope : Scope) :
    Blockless (c.typeScriptHeader scope) := by
  obtain ⟨hn, hp, -⟩ := h
  unfold Blockless at *
  cases hc : c.parent with
  | none =>
    cases scope <;>
      simp (disch := decide) [Class.typeScriptHeader, Class.parentClause, Scope.declare, hc, hn]
  | some p =>
    have hp := hp p hc
    cases scope <;>
      simp (disch := decide) [Class.typeScriptHeader, Class.parentClause, Scope.declare, hc, hn, hp]

theorem Enum.Plain.header {e : Enum} (h : e.Plain) (scope : Scope) :
    Blockless (e.header .typeScript scope) := by
  have hn := h.name
  unfold Blockless at *
  cases scope <;> cases hc : e.constant <;>
    simp (disch := decide) [Enum.header, Scope.declare, hc, hn]

theorem EnumMember.Plain.line {m : EnumMember} (h : m.Plain) (c : Enum.Count) :
    Blockless (Enum.key .typeScript m.name ++ c.assignment .typeScript m ++ ",") := by
  have hk := blockless_key h.name
  have ht := blockless_repr c.next.toInt
  unfold Blockless at *
  cases hv : m.value with
  | none => cases ha : c.agreed <;> simp (disch := decide) [Enum.Count.assignment, hv, ha, hk, ht]
  | some x =>
    have hx : Avoids opening (x.literal .typeScript).toList := h.value x hv
    simp (disch := decide) [Enum.Count.assignment, hv, hk, hx]

theorem Namespace.Plain.header {n : Namespace} (h : n.Plain) (scope : Scope) :
    Blockless (scope.declare ++ "namespace " ++ n.name ++ " \x7b") := by
  have hn := h.name
  unfold Blockless at *
  cases scope <;> simp (disch := decide) [Scope.declare, hn]

/-- An empty body is closed on the line of its header. -/
theorem Blockless.closed {s : String} (h : Blockless s) : Blockless (s ++ "\x7d") := by
  unfold Blockless at *
  simp (disch := decide) [h]

end Ambient
