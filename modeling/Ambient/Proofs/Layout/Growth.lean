import Ambient.Edit
import Ambient.Proofs.Layout.Verbatim
import Ambient.Proofs.Numbering.Runs

/-!
An enumeration that gets one more member. What was written of it stays, up to the brace that closes it:
the lines of a member are told by the member and those before it.
-/
namespace Ambient
open Text Writer

/-- A text is this front, which ends with a line, and the line of a closing brace. -/
structure ClosedBehind (text front : String) : Prop where
  text : text = front ++ "\x7d"
  whole : front.toList.getLast? = some '\n'

namespace Enum

/-! Own lines. -/

/-- Whether a reader of TypeScript counts on: the last of these members has no value, or an integer. -/
def countsOn (before : List EnumMember) : Bool :=
  match before.getLast? with
  | some k => k.value.isNone || k.int?.isSome
  | none => true

/-- What a member behind these shows behind its key. -/
def initializerBehind (d : Dialect) (before : List EnumMember) (m : EnumMember) : Option String :=
  match m.value with
  | some v => some (v.literal d)
  | none =>
    if d = .typeScript ∧ countsOn before then none
    else some (toString (min (ordinal before) topNumber))

/-- The lines of a member behind these: its description, and its key with what stands behind it. -/
def ownLines (d : Dialect) (before : List EnumMember) (m : EnumMember) : List String :=
  m.desc.elim [] (Doc.comment d) ++
    [key d m.name ++ assigned (initializerBehind d before m) ++ ","]

/-- The lines of a member as they stand between the braces. -/
def ownText (d : Dialect) (before : List EnumMember) (m : EnumMember) : String :=
  writtenLines (spaces d.indent) (ownLines d before m)

namespace Count

theorem afterAll_concat (c : Count) (ms : List EnumMember) (m : EnumMember) :
    c.afterAll (ms ++ [m]) = (c.afterAll ms).after m := by
  rw [afterAll, List.foldl_append]
  rfl

theorem Follows.afterAll {c : Count} {before : List EnumMember} (h : c.Follows before)
    (ms : List EnumMember) : (c.afterAll ms).Follows (before ++ ms) := by
  induction ms generalizing c before with
  | nil => rwa [List.append_nil]
  | cons m ms ih =>
    have hm := ih (h.after m)
    rwa [List.append_assoc] at hm

theorem agreed_afterAll (ms : List EnumMember) : (start.afterAll ms).agreed = countsOn ms := by
  rcases ms.eq_nil_or_concat with rfl | ⟨ms, m, rfl⟩
  · rfl
  · rw [List.concat_eq_append, afterAll_concat, countsOn, List.getLast?_concat]
    cases hv : m.value with
    | none => simp [after, hv]
    | some v => cases v <;> simp [after, hv, EnumMember.int?, Value.int?]

/-- The count knows of the members before it nothing but their number and what the last one is. -/
theorem initializer_afterAll (d : Dialect) (before : List EnumMember) (m : EnumMember) :
    (start.afterAll before).initializer d m = initializerBehind d before m := by
  have hf : (start.afterAll before).next.toInt = min (ordinal before) topNumber :=
    follows_start.afterAll before
  unfold initializer initializerBehind
  cases m.value with
  | some v => cases d <;> rfl
  | none => cases d <;> simp [hf, agreed_afterAll]

end Count

/-! The front of a rendering. -/

/-- What stands before the members. -/
def opening (e : Enum) (d : Dialect) (scope : Scope) : List Step :=
  .docIf d e.desc :: e.annotation d ++ [.line (e.header d scope), .indent]

/-- The rows of a rendering with these members, up to the brace that closes it. -/
def frontRows (e : Enum) (d : Dialect) (scope : Scope) (ms : List EnumMember) : List (List Char) :=
  rowsFrom d.indent 0 (e.opening d scope ++ Count.start.entries d ms)

def front (e : Enum) (d : Dialect) (scope : Scope) : String :=
  String.ofList (terminated (e.frontRows d scope e.members))

section Rows

variable (e : Enum) (d : Dialect) (scope : Scope)

theorem levelAfter_front (ms : List EnumMember) :
    levelAfter 0 (e.opening d scope ++ Count.start.entries d ms) = 1 := by
  have ho : levelAfter 0 (e.opening d scope) = 1 := by cases d <;> rfl
  rw [levelAfter, List.foldl_append]
  change levelAfter (levelAfter 0 (e.opening d scope)) _ = 1
  rw [ho, levelAfter_of_isFlat (Count.entries_isFlat _ d ms)]

/-- Members that come behind others leave the rows before them alone. -/
theorem frontRows_append (before after : List EnumMember) :
    e.frontRows d scope (before ++ after) = e.frontRows d scope before ++
      rowsFrom d.indent 1 ((Count.start.afterAll before).entries d after) := by
  rw [frontRows, Count.entries_append, ← List.append_assoc, rowsFrom_append, levelAfter_front]
  rfl

theorem rows_member (before : List EnumMember) (m : EnumMember) :
    terminated (rowsFrom d.indent 1 ((Count.start.afterAll before).entries d [m])) =
      (ownText d before m).toList := by
  rw [Count.entries, Count.entries, Count.rows_entry, Count.initializer_afterAll, ownText,
    toList_writtenLines, ownLines, entryLines, entryLine]
  simp [rowsFrom, toList_spaces, Function.comp_def]

theorem frontRows_ne_nil (ms : List EnumMember) : e.frontRows d scope ms ≠ [] := by
  have hline : blanks 0 ++ (e.header d scope).toList ∈
      rowsFrom d.indent 0 (e.opening d scope) := by
    cases d <;> simp [opening, annotation, rowsFrom, Step.rows, Step.leveled]
  rw [frontRows, rowsFrom_append]
  exact List.append_ne_nil_of_left_ne_nil (List.ne_nil_of_mem hline) _

theorem closedBehind_front (h : e.members ≠ []) :
    ClosedBehind (e.render d scope) (e.front d scope) where
  text := by
    have hsteps : e.steps d scope = e.opening d scope ++ Count.start.entries d e.members ++
        [.dedent, .line "\x7d"] := by
      obtain ⟨m, ms, hm⟩ := List.exists_cons_of_ne_nil h
      simp [steps, opening, body, hm]
    have hrows : rowsFrom d.indent 0 (e.steps d scope) =
        e.frontRows d scope e.members ++ ["\x7d".toList] := by
      rw [hsteps, rowsFrom_append, levelAfter_front]
      simp [frontRows, rowsFrom, Step.rows, Step.leveled, blanks]
    rw [← String.toList_inj, render, toList_render hrows, front]
    simp
  whole := by
    rw [front, String.toList_ofList]
    exact getLast?_terminated (e.frontRows_ne_nil d scope e.members)

end Rows

/--
A member that is added to an enumeration with members leaves what is written of these as it is: their
lines, with the numbers in them, and then come its own lines and the brace. So what is written of the
first members, up to the brace, begins what is written of all.
-/
theorem render_addMember (e : Enum) (h : e.members ≠ []) (m : EnumMember) (d : Dialect)
    (scope : Scope) :
    ∃ e' front, (Edit.addMember m).onEnum e = some e' ∧ ClosedBehind (e.render d scope) front ∧
      e'.render d scope = front ++ ownText d e.members m ++ "\x7d" ∧
      e'.initializers d = e.initializers d ++ [initializerBehind d e.members m] ∧
      ∀ before after, before ≠ [] → e.members = before ++ after →
        ∃ front', ClosedBehind (render { e with members := before } d scope) front' ∧
          front'.toList <+: front.toList := by
  let e' : Enum := { e with members := e.members ++ [m] }
  have hfront : e'.front d scope = e.front d scope ++ ownText d e.members m := by
    have hrows : e'.frontRows d scope e'.members = e.frontRows d scope e.members ++
        rowsFrom d.indent 1 ((Count.start.afterAll e.members).entries d [m]) :=
      e.frontRows_append d scope e.members [m]
    rw [← String.toList_inj, front, hrows, terminated_append, rows_member]
    simp [front]
  have hclosed : ClosedBehind (e'.render d scope) (e'.front d scope) :=
    e'.closedBehind_front d scope (by simp [e'])
  refine ⟨e', e.front d scope, rfl, e.closedBehind_front d scope h, hfront ▸ hclosed.text, ?_, ?_⟩
  · rw [initializers, Count.initializers_append, ← Count.initializer_afterAll]
    rfl
  · intro before after hne hm
    refine ⟨_, closedBehind_front { e with members := before } d scope hne, ?_⟩
    have hrows : e.frontRows d scope e.members =
        frontRows { e with members := before } d scope before ++
          rowsFrom d.indent 1 ((Count.start.afterAll before).entries d after) :=
      hm ▸ e.frontRows_append d scope before after
    rw [front, front, hrows, terminated_append, String.toList_ofList, String.toList_ofList]
    exact List.prefix_append _ _

/-! Behind a string TypeScript does not count on, so the new member shows its number. -/

def levels : Enum where
  name := "Level"
  members := [{ name := "low", value := some (.int 4), desc := some "the */ first" },
    { name := "end", value := some (.string "x") }]

def topLevel : EnumMember where
  name := "top level"
  desc := some "two\nlines"

theorem render_addMember_levels :
    levels.members ≠ [] ∧ ∃ e' front, (Edit.addMember topLevel).onEnum levels = some e' ∧
      ClosedBehind (levels.render .typeScript .topLevel) front ∧
      e'.render .typeScript .topLevel = front ++
        "  /**\n   * two\n   * lines\n   */\n  \"top level\" = 5,\n" ++ "\x7d" := by
  have hne : levels.members ≠ [] := by decide
  obtain ⟨e', front, he, hclosed, hrender, -⟩ :=
    render_addMember levels hne topLevel .typeScript .topLevel
  have hown : ownText .typeScript levels.members topLevel =
      "  /**\n   * two\n   * lines\n   */\n  \"top level\" = 5,\n" := by decide +kernel
  exact ⟨hne, e', front, he, hclosed, hown ▸ hrender⟩

end Enum
end Ambient
