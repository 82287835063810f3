import Ambient.Proofs.Description.Lua
import Ambient.Proofs.StringLiterals

/-! Declarations whose names, types and expressions have no line breaks, and the lines written for them. -/
namespace Ambient
open Doc

/-! Numerals and literals. -/

theorem isBreak_of_isDigit {c : Char} (h : c.isDigit = true) : isBreak c = false := by
  simp only [isBreak, Bool.or_eq_false_iff, decide_eq_false_iff_not]
  constructor <;> rintro rfl <;> cases h

theorem oneLine_ofList {s : List Char} : OneLine (String.ofList s) ↔ ∀ c ∈ s, isBreak c = false := by
  rw [OneLine, String.toList_ofList]

theorem isBreak_of_mem_toDigits {n : Nat} {c : Char} (h : c ∈ Nat.toDigits 10 n) :
    isBreak c = false :=
  isBreak_of_isDigit (Nat.isDigit_of_mem_toDigits (by decide) (by decide) h)

theorem oneLine_natRepr (n : Nat) : OneLine n.repr := by
  intro c hc
  rw [Nat.toList_repr] at hc
  exact isBreak_of_mem_toDigits hc

theorem oneLine_toString (n : Int) : OneLine (toString n) := by
  rw [Int.toString_eq_repr, Int.repr_eq_if]
  split
  · exact oneLine_natRepr _
  · exact oneLine_append.mpr ⟨by decide, oneLine_natRepr _⟩

namespace Binary64

theorem oneLine_zeros (n : Nat) : OneLine (zeros n) := by
  rw [zeros, oneLine_ofList]
  intro c hc
  rw [List.eq_of_mem_replicate hc]
  decide

theorem oneLine_ofDigits {n : Nat} {ds : List Char} (h : ds ⊆ Nat.toDigits 10 n) :
    OneLine (String.ofList ds) :=
  oneLine_ofList.mpr fun _ hc => isBreak_of_mem_toDigits (h hc)

theorem oneLine_positional (d : Decimal) : OneLine d.positional := by
  have hs : OneLine (String.ofList (Nat.toDigits 10 d.digits)) := oneLine_ofDigits (List.Subset.refl _)
  have hp := oneLine_ofDigits (List.take_subset
    ((Nat.toDigits 10 d.digits).length + d.exponent).toNat (Nat.toDigits 10 d.digits))
  have hq := oneLine_ofDigits (List.drop_subset
    ((Nat.toDigits 10 d.digits).length + d.exponent).toNat (Nat.toDigits 10 d.digits))
  simp only [Decimal.positional]
  split
  · simp only [oneLine_append]
    exact ⟨⟨hs, oneLine_zeros _⟩, by decide⟩
  · split
    · simp only [oneLine_append]
      exact ⟨⟨hp, by decide⟩, hq⟩
    · simp only [oneLine_append]
      exact ⟨⟨by decide, oneLine_zeros _⟩, hs⟩

theorem oneLine_scientific (l : Layout) (d : Decimal) : OneLine (d.scientific l) := by
  have hs : OneLine (String.ofList (Nat.toDigits 10 d.digits)) := oneLine_ofDigits (List.Subset.refl _)
  have ht := oneLine_ofDigits (List.take_subset 1 (Nat.toDigits 10 d.digits))
  have hr := oneLine_ofDigits (List.drop_subset 1 (Nat.toDigits 10 d.digits))
  simp only [Decimal.scientific, oneLine_append]
  refine ⟨⟨?_, ?_⟩, oneLine_toString _⟩
  · split
    · exact hs
    · simp only [oneLine_append]
      exact ⟨⟨ht, by decide⟩, hr⟩
  · split <;> decide

theorem oneLine_signed {s : String} (h : OneLine s) (negative : Bool) :
    OneLine (signed negative s) := by
  unfold signed
  split
  · exact oneLine_append.mpr ⟨by decide, h⟩
  · exact h

theorem oneLine_text (x : Binary64) : OneLine x.text := by
  cases x with
  | nan => decide
  | infinite n => exact oneLine_signed (by decide) n
  | finite n rank =>
    refine oneLine_signed ?_ n
    unfold Decimal.text
    split
    · exact oneLine_positional _
    · exact oneLine_scientific _ _

end Binary64

theorem Literal.oneLine_string (d : Dialect) (s : String) : OneLine (Literal.string d s) := by
  rw [Literal.string, oneLine_ofList]
  intro c hc
  have hn := Literal.not_isControl_of_mem_quote hc
  simp only [isBreak, Bool.or_eq_false_iff, decide_eq_false_iff_not]
  constructor <;> rintro rfl <;> cases hn

/-! Declarations. Descriptions may have any number of lines, but none that ends in a carriage return. -/

def TypeRef.OneLine (t : TypeRef) : Prop := ∀ s, t = .named s → Doc.OneLine s

def Value.OneLine (v : Value) : Prop := ∀ e, v = .raw e → Doc.OneLine e

/-- A description none of whose lines ends in a carriage return. -/
def Doc.Unreturned (text : String) : Prop := ∀ l ∈ Text.lines text, l.toList.getLast? ≠ some '\r'

structure Variable.Tidy (v : Variable) : Prop where
  name : OneLine v.name
  type : v.type.OneLine
  value : ∀ x ∈ v.value, x.OneLine
  desc : Unreturned v.desc

structure Field.Tidy (f : Field) : Prop where
  name : OneLine f.name
  type : ∀ t ∈ f.type, t.OneLine
  desc : ∀ s ∈ f.desc, Unreturned s

structure Class.Tidy (c : Class) : Prop where
  name : OneLine c.name
  parent : ∀ p ∈ c.parent, OneLine p
  fields : ∀ f ∈ c.fields, f.Tidy
  desc : Unreturned c.desc

structure EnumMember.Tidy (m : EnumMember) : Prop where
  name : OneLine m.name
  value : ∀ x ∈ m.value, x.OneLine
  desc : ∀ s ∈ m.desc, Unreturned s

structure Enum.Tidy (e : Enum) : Prop where
  name : OneLine e.name
  members : ∀ m ∈ e.members, m.Tidy
  desc : Unreturned e.desc

/-- What is said of parameters and results is flattened to one line, and the rest is not written. -/
structure Function.Tidy (f : Function) : Prop where
  name : OneLine f.name
  params : ∀ p ∈ f.params, OneLine p.name ∧ ∀ t ∈ p.type, t.OneLine
  returns : ∀ r ∈ f.returns, (∀ s ∈ r.name, OneLine s) ∧ ∀ t ∈ r.type, t.OneLine

structure Namespace.Tidy (n : Namespace) : Prop where
  name : OneLine n.name
  enums : ∀ e ∈ n.enums, e.Tidy
  classes : ∀ c ∈ n.classes, c.Tidy
  vars : ∀ v ∈ n.vars, v.Tidy
  functions : ∀ f ∈ n.functions, f.Tidy

def Member.Tidy : Member → Prop
  | .enum e => e.Tidy
  | .cls c => c.Tidy
  | .var v => v.Tidy
  | .func f => f.Tidy

theorem Namespace.Tidy.member {n : Namespace} (h : n.Tidy) {m : Member} (hm : m ∈ n.members) :
    m.Tidy := by
  simp only [Namespace.members, List.mem_append, List.mem_map] at hm
  rcases hm with ((⟨e, he, rfl⟩ | ⟨c, hc, rfl⟩) | ⟨v, hv, rfl⟩) | ⟨f, hf, rfl⟩
  · exact h.enums e he
  · exact h.classes c hc
  · exact h.vars v hv
  · exact h.functions f hf

/-! Lines. -/

theorem TypeRef.OneLine.spelling {t : TypeRef} (h : t.OneLine) (d : Dialect) :
    Doc.OneLine (t.spelling d) := by
  cases t with
  | named s => exact h s rfl
  | builtin t =>
    have hb : ∀ t d, Doc.OneLine (DataType.spelling t d) := by
      intro t d
      cases t with
      | integer signed width => cases signed <;> cases width <;> cases d <;> decide
      | _ => cases d <;> decide
    exact hb t d

theorem oneLine_spellingOrAny {t : Option TypeRef} (h : ∀ x ∈ t, x.OneLine) (d : Dialect) :
    OneLine (TypeRef.spellingOrAny t d) := by
  cases t with
  | none => cases d <;> decide
  | some t => exact (h t rfl).spelling d

theorem Value.OneLine.literal {v : Value} (h : v.OneLine) (d : Dialect) : Doc.OneLine (v.literal d) := by
  cases v with
  | nil => cases d <;> decide
  | bool b => cases b <;> cases d <;> decide
  | int n => exact oneLine_toString _
  | float x =>
    cases x with
    | finite n rank => cases d <;> exact Binary64.oneLine_text _
    | nan => cases d <;> decide
    | infinite n => cases d <;> exact Binary64.oneLine_signed (by decide) n
  | string s => exact Literal.oneLine_string d s
  | raw e => exact h e rfl

theorem oneLine_literalOrUnset {v : Option Value} (h : ∀ x ∈ v, x.OneLine) (d : Dialect) :
    OneLine (Value.literalOrUnset d v) := by
  cases v with
  | none => cases d <;> decide
  | some v => exact (h v rfl).literal d

theorem oneLine_declare (scope : Scope) : OneLine scope.declare := by cases scope <;> decide

theorem Alias.oneLine_line {a : Alias} (hn : OneLine a.name) (ht : a.type.OneLine) (d : Dialect)
    (scope : Scope) : OneLine (a.line d scope) := by
  have hs := ht.spelling d
  cases d with
  | lua =>
    simp only [Alias.line, oneLine_append]
    exact ⟨⟨⟨by decide, hn⟩, by decide⟩, hs⟩
  | typeScript =>
    simp only [Alias.line, oneLine_append]
    exact ⟨⟨⟨⟨⟨oneLine_declare scope, by decide⟩, hn⟩, by decide⟩, hs⟩, by decide⟩

end Ambient
