import Ambient.Manifest.Decode
import Mathlib.Data.List.Perm.Basic

/-!
Literal values: a node without problems that is a scalar, or a table in which one entry holds an
expression. The other entries of such a table do not count.
-/
namespace Ambient.Manifest

theorem readValue_eq_ok_iff {n : Node} {v : Value} :
    readValue n = .ok v ↔ n.problem? = none ∧ value? n = some v := by
  unfold readValue
  split <;> simp_all

theorem itemsProblem?_eq_none_iff {ns : List Node} :
    Node.itemsProblem? ns = none ↔ ∀ n ∈ ns, n.problem? = none := by
  induction ns with
  | nil => simp [Node.itemsProblem?]
  | cons n ns ih => simp [Node.itemsProblem?, ih]

theorem entriesProblem?_eq_none_iff {es : List Entry} :
    Node.entriesProblem? es = none ↔ ∀ e ∈ es, Node.entryProblem? e = none := by
  induction es with
  | nil => simp [Node.entriesProblem?]
  | cons e es ih => simp [Node.entriesProblem?, ih]

theorem problem?_sequence_eq_none_iff {ns : List Node} {closing : Option Problem} :
    (Node.sequence ns closing).problem? = none ↔ (∀ n ∈ ns, n.problem? = none) ∧ closing = none := by
  rw [Node.problem?, Option.or_eq_none_iff, itemsProblem?_eq_none_iff]

theorem problem?_table_eq_none_iff {es : List Entry} {closing : Option Problem} :
    (Node.table es closing).problem? = none ↔
      (∀ e ∈ es, Node.entryProblem? e = none) ∧ closing = none := by
  rw [Node.problem?, Option.or_eq_none_iff, entriesProblem?_eq_none_iff]

namespace Entry

/-- Whether the entry stands under the key for expressions. -/
def isRaw : Entry → Bool
  | .mk (.named key) _ => key = rawKey
  | _ => false

/-- The text of the one entry, if there is one and it holds a text. -/
def onlyText? : List Entry → Option String
  | [.mk _ (.text s)] => some s
  | _ => none

theorem onlyText?_perm {es fs : List Entry} (h : es.Perm fs) : onlyText? es = onlyText? fs := by
  match es, fs, h with
  | [], _, h => rw [List.nil_perm.mp h]
  | [e], _, h => rw [List.singleton_perm.mp h]
  | _ :: _ :: _, [], h => exact absurd h.length_eq (by simp)
  | _ :: _ :: _, [_], h => exact absurd h.length_eq (by simp)
  | _ :: _ :: _, _ :: _ :: _, _ => simp [onlyText?]

theorem onlyText?_eq_some_iff {es : List Entry} {s : String} :
    onlyText? es = some s ↔ ∃ key, es = [.mk key (.text s)] := by
  unfold onlyText?
  split <;> simp_all

end Entry

theorem rawExpression?_eq (es : List Entry) :
    rawExpression? es = Entry.onlyText? (es.filter Entry.isRaw) := rfl

/-- A table holds an expression when that is the only entry under its key. -/
theorem rawExpression?_eq_some_iff {es : List Entry} {s : String} :
    rawExpression? es = some s ↔ es.filter Entry.isRaw = [.mk (.named rawKey) (.text s)] := by
  rw [rawExpression?_eq, Entry.onlyText?_eq_some_iff]
  constructor
  · rintro ⟨key, hes⟩
    have hraw : Entry.isRaw (.mk key (.text s)) := by
      have hmem : .mk key (.text s) ∈ es.filter Entry.isRaw := by simp [hes]
      exact (List.mem_filter.mp hmem).2
    cases key with
    | named key => rw [hes, of_decide_eq_true hraw]
    | odd p => cases hraw
  · exact fun hes => ⟨_, hes⟩

theorem rawExpression?_perm {es fs : List Entry} (h : es.Perm fs) :
    rawExpression? es = rawExpression? fs :=
  Entry.onlyText?_perm (h.filter Entry.isRaw)

end Ambient.Manifest
