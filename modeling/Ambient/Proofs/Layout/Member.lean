import Ambient.Proofs.Description.Bare
import Ambient.Proofs.Description.Blocks
import Ambient.Proofs.Layout.OneLine
import Mathlib.Data.List.Basic

/-!
The lines of a declaration's own text. In a tidy declaration each row that the writer sets is one
line, and no line is lost when the text is cut into lines again.
-/
namespace Ambient
open Doc Text Writer

/-! Rows that are lines. -/

/-- A row that a reader of lines finds again as it is. -/
def IsLine (r : List Char) : Prop := '\n' ∉ r ∧ r.getLast? ≠ some '\r'

instance (r : List Char) : Decidable (IsLine r) :=
  inferInstanceAs (Decidable ('\n' ∉ r ∧ r.getLast? ≠ some '\r'))

theorem IsLine.append {r s : List Char} (hr : IsLine r) (hs : IsLine s) : IsLine (r ++ s) := by
  by_cases hne : s = []
  · rw [hne, List.append_nil]
    exact hr
  · refine ⟨?_, ?_⟩
    · rw [List.mem_append, not_or]
      exact ⟨hr.1, hs.1⟩
    · rw [List.getLast?_append_of_ne_nil _ hne]
      exact hs.2

theorem isLine_of_forall {s : List Char} (h : ∀ c ∈ s, isBreak c = false) : IsLine s :=
  ⟨fun hm => absurd (h _ hm) (by decide), fun hl => absurd (h _ (List.mem_of_getLast? hl)) (by decide)⟩

theorem isLine_blanks (n : Nat) : IsLine (blanks n) := by
  refine isLine_of_forall fun c hc => ?_
  rw [List.eq_of_mem_replicate hc]
  decide

theorem flatMap_pieces {rs : List (List Char)} (h : ∀ r ∈ rs, IsLine r) : rs.flatMap pieces = rs := by
  have hp : rs.flatMap pieces = rs.flatMap fun r => [r] :=
    List.flatMap_congr fun r hr => pieces_of_not_mem (h r hr).1
  rw [hp, List.flatMap_singleton']

/-- Rows that are lines are the lines of their text. -/
theorem pieces_terminated {rs : List (List Char)} {last : List Char}
    (h : ∀ r ∈ rs ++ [last], IsLine r) : pieces (terminated rs ++ last) = rs ++ [last] := by
  have hl := h last (by simp)
  have hr : ∀ r ∈ rs, IsLine r := fun r hr => h r (List.mem_append_left _ hr)
  have ht : pieces (terminated rs ++ last) = rs.flatMap pieces ++ pieces last :=
    splitWhere_terminated (by decide) rs last
  rw [ht, flatMap_pieces hr, pieces_of_not_mem hl.1]

theorem map_chomp {rs : List (List Char)} (h : ∀ r ∈ rs, IsLine r) : rs.map chomp = rs := by
  have hc : rs.map chomp = rs.map id := List.map_congr_left fun r hr => if_neg (h r hr).2
  rw [hc, List.map_id]

theorem lineList_terminated_of_isLine {rs : List (List Char)} {last : List Char}
    (h : ∀ r ∈ rs ++ [last], IsLine r) (hne : last ≠ []) :
    lineList (terminated rs ++ last) = rs ++ [last] := by
  have hl := h last (by simp)
  have hr : ∀ r ∈ rs, IsLine r := fun r hr => h r (List.mem_append_left _ hr)
  have hlast : lineList last = [last] := by
    have hs : splitWhere (· == '\n') last = [last] := pieces_of_not_mem hl.1
    rw [lineList, hs, linesOfPieces, if_neg (by simpa using hne)]
  rw [lineList_terminated, flatMap_pieces hr, map_chomp hr, hlast]

/-- A text of these lines, the last of which is not empty: no reader of lines loses one. -/
structure LaidOut (s : String) (ls : List (List Char)) : Prop where
  isLine : ∀ l ∈ ls, IsLine l
  rows : ∃ rs last, ls = rs ++ [last] ∧ last ≠ [] ∧ s.toList = terminated rs ++ last

namespace LaidOut

variable {s : String} {ls : List (List Char)}

theorem pieces_eq (h : LaidOut s ls) : pieces s.toList = ls := by
  obtain ⟨rs, last, rfl, -, hs⟩ := h.rows
  rw [hs, pieces_terminated h.isLine]

theorem lineList_eq (h : LaidOut s ls) : lineList s.toList = ls := by
  obtain ⟨rs, last, rfl, hne, hs⟩ := h.rows
  rw [hs, lineList_terminated_of_isLine h.isLine hne]

end LaidOut

/-! Steps of tidy declarations. -/

/-- A step that breaks no line of its own. -/
def Writer.Step.Tidy : Step → Prop
  | .line s => Doc.OneLine s
  | .doc _ s | .docIf _ s => Unreturned s
  | .blank | .indent | .dedent => True
  | .lines _ => False

/-- A step all of whose rows are lines. -/
def Writer.Step.Lined : Step → Prop
  | .line s => IsLine s.toList
  | .doc _ s | .docIf _ s => Unreturned s
  | .blank | .indent | .dedent => True
  | .lines _ => False

theorem Writer.Step.Tidy.lined {s : Step} (h : s.Tidy) : s.Lined := by
  cases s with
  | line s => exact isLine_of_forall h
  | lines | blank | indent | dedent | doc | docIf => exact h

theorem getLast?_shieldChars (s : List Char) : (shieldChars s).getLast? = s.getLast? := by
  fun_induction shieldChars s with
  | case1 cs ih => cases cs <;> simp_all [List.getLast?_cons]
  | case2 c cs hne ih => cases cs <;> simp_all [List.getLast?_cons]
  | case3 => rfl

theorem isLine_of_mem_linesOrEmpty {text l : String} (ht : Unreturned text)
    (h : l ∈ linesOrEmpty text) : IsLine l.toList := by
  refine ⟨newline_not_mem_linesOrEmpty h, ?_⟩
  unfold linesOrEmpty at h
  split at h
  · obtain rfl : l = "" := by simpa using h
    decide
  · exact ht l h

theorem isLine_shield {l : String} (h : IsLine l.toList) : IsLine (shield l).toList := by
  rw [shield, String.toList_ofList]
  refine ⟨fun hm => ?_, by rw [getLast?_shieldChars]; exact h.2⟩
  rcases mem_shieldChars hm with hm | hm
  · exact h.1 hm
  · exact absurd hm (by decide)

theorem isLine_starred {l : String} (h : IsLine l.toList) : IsLine (starred l).toList := by
  unfold starred
  split
  · decide
  · rw [String.toList_append]
    exact IsLine.append (by decide) h

theorem isLine_of_mem_comment {d : Dialect} {text l : String} (ht : Unreturned text)
    (h : l ∈ comment d text) : IsLine l.toList := by
  have hl := fun k (hk : k ∈ linesOrEmpty text) => isLine_of_mem_linesOrEmpty ht hk
  unfold comment at h
  split at h
  next =>
    obtain ⟨k, hk, rfl⟩ := List.mem_map.mp h
    rw [String.toList_append]
    exact IsLine.append (by decide) (hl k hk)
  next k hk =>
    obtain rfl := List.mem_singleton.mp h
    rw [hk, List.forall_mem_singleton] at hl
    simp only [String.toList_append]
    exact IsLine.append (IsLine.append (by decide) (isLine_shield hl)) (by decide)
  next =>
    simp only [List.mem_append, List.mem_cons, List.mem_map, Function.comp_apply,
      List.not_mem_nil, or_false] at h
    rcases h with (rfl | ⟨k, hk, rfl⟩) | rfl
    · decide
    · exact isLine_starred (isLine_shield (hl k hk))
    · decide

/-- A comment has a mark or a margin in each of its lines, whatever it says. -/
theorem head?_of_mem_comment {d : Dialect} {text l : String} (h : l ∈ comment d text) :
    ∃ c ∈ ['-', '/', ' '], l.toList.head? = some c := by
  unfold comment at h
  split at h
  next =>
    obtain ⟨k, -, rfl⟩ := List.mem_map.mp h
    exact ⟨'-', by simp, by simp⟩
  next =>
    obtain rfl := List.mem_singleton.mp h
    exact ⟨'/', by simp, by simp⟩
  next =>
    simp only [List.mem_append, List.mem_cons, List.mem_map, Function.comp_apply,
      List.not_mem_nil, or_false] at h
    rcases h with (rfl | ⟨k, -, rfl⟩) | rfl
    · exact ⟨'/', by simp, by decide⟩
    · refine ⟨' ', by simp, ?_⟩
      unfold starred
      split <;> simp
    · exact ⟨' ', by simp, by decide⟩

theorem isLine_docRows {text : String} (ht : Unreturned text) (n : Nat) (d : Dialect) :
    ∀ r ∈ docRows n d text, IsLine r := by
  intro r hr
  obtain ⟨l, hl, rfl⟩ := List.mem_map.mp hr
  exact (isLine_blanks n).append (isLine_of_mem_comment ht hl)

theorem Writer.Step.Lined.isLine {s : Step} (h : s.Lined) (n : Nat) : ∀ r ∈ s.rows n, IsLine r := by
  cases s with
  | line s => exact List.forall_mem_singleton.mpr ((isLine_blanks n).append h)
  | lines s => exact h.elim
  | blank => exact List.forall_mem_singleton.mpr (by decide)
  | indent | dedent => simp [Step.rows]
  | doc d s => exact isLine_docRows h n d
  | docIf d s =>
    rw [Step.rows]
    split
    · simp
    · exact isLine_docRows h n d

theorem isLine_rowsFrom {ss : List Step} (h : ∀ s ∈ ss, s.Lined) (width level : Nat) :
    ∀ r ∈ rowsFrom width level ss, IsLine r :=
  forall_mem_rowsFrom (fun s hs n => (h s hs).isLine n) width level

/-- The last step writes a line, and not an empty one. -/
def EndsInLine (ss : List Step) : Prop := ∃ ts s, ss = ts ++ [.line s] ∧ s ≠ ""

theorem toList_render_of_endsInLine {d : Dialect} {ss : List Step} (h : EndsInLine ss) :
    (render d ss).toList = ['\n'].intercalate (rowsFrom d.indent 0 ss) := by
  obtain ⟨ts, s, rfl, -⟩ := h
  have hr := rowsFrom_concat_line d.indent 0 ts s
  rw [toList_render hr, terminated_append_eq, hr]

/-- The text of tidy steps that end with a line has their rows as its lines. -/
theorem laidOut_render {d : Dialect} {ss : List Step} (h : ∀ t ∈ ss, t.Tidy) (hl : EndsInLine ss) :
    LaidOut (render d ss) (rowsFrom d.indent 0 ss) where
  isLine := isLine_rowsFrom (fun t ht => (h t ht).lined) d.indent 0
  rows := by
    obtain ⟨ts, s, rfl, hs⟩ := hl
    have hr := rowsFrom_concat_line d.indent 0 ts s
    exact ⟨_, _, hr, by simp [hs], toList_render hr⟩

/-! Declarations. Beside their descriptions they write lines that their names and types leave whole. -/

theorem unreturned_empty : Unreturned "" := by
  unfold Unreturned
  decide

theorem Variable.Tidy.bare {v : Variable} (h : v.Tidy) : v.bare.Tidy :=
  ⟨h.name, h.type, h.value, unreturned_empty⟩

theorem Field.Tidy.bare {f : Field} (h : f.Tidy) : f.bare.Tidy := ⟨h.name, h.type, nofun⟩

theorem Class.Tidy.bare {c : Class} (h : c.Tidy) : c.bare.Tidy :=
  ⟨h.name, h.parent, List.forall_mem_map.mpr fun f hf => (h.fields f hf).bare, unreturned_empty⟩

theorem EnumMember.Tidy.bare {m : EnumMember} (h : m.Tidy) : m.bare.Tidy := ⟨h.name, h.value, nofun⟩

theorem Enum.Tidy.bare {e : Enum} (h : e.Tidy) : e.bare.Tidy :=
  ⟨h.name, List.forall_mem_map.mpr fun m hm => (h.members m hm).bare, unreturned_empty⟩

/-- What holds of a step that writes one line with text in it, and of a change of the level. -/
structure OnLines (P : Step → Prop) : Prop where
  line : ∀ s, OneLine s → s ≠ "" → P (.line s)
  indent : P .indent
  dedent : P .dedent

theorem onLines_tidy : OnLines Step.Tidy := ⟨fun _ h _ => h, trivial, trivial⟩

section OnLines

variable {P : Step → Prop}

/-- What stands in braces behind a header. -/
theorem OnLines.body (hP : OnLines P) {header : String} (hh : OneLine header) (hne : header ≠ "")
    {body : List Step} (hb : ∀ s ∈ body, P s) :
    ∀ s ∈ [.line header, .indent] ++ body ++ [.dedent, .line "\x7d"], P s := by
  simp only [List.forall_mem_append, List.forall_mem_cons, List.not_mem_nil, false_implies,
    implies_true, and_true]
  refine ⟨⟨⟨?_, hP.indent⟩, hb⟩, hP.dedent, ?_⟩
  · exact hP.line header hh hne
  · exact hP.line "\x7d" (by decide) (by decide)

theorem Variable.forall_mem_steps (hP : OnLines P) {v : Variable} (h : v.bare.Tidy) {d : Dialect}
    (hd : P (.docIf d v.desc)) (scope : Scope) : ∀ s ∈ v.steps d scope, P s := by
  have hn : OneLine v.name := h.name
  have ht := h.type.spelling d
  have hv := oneLine_literalOrUnset h.value d
  have hk : OneLine v.keyword := by
    unfold Variable.keyword
    split <;> decide
  refine List.forall_mem_cons.mpr ⟨hd, ?_⟩
  cases d with
  | lua =>
    refine List.forall_mem_cons.mpr ⟨?_, List.forall_mem_singleton.mpr ?_⟩
    · apply hP.line _ _ (by simp)
      exact oneLine_append.mpr ⟨by decide, ht⟩
    · apply hP.line _ _ (by simp)
      exact oneLine_append.mpr ⟨oneLine_append.mpr ⟨hn, by decide⟩, hv⟩
  | typeScript =>
    refine List.forall_mem_singleton.mpr (hP.line _ ?_ (by simp))
    simp only [oneLine_append]
    exact ⟨⟨⟨⟨⟨⟨⟨⟨oneLine_declare scope, hk⟩, by decide⟩, hn⟩, by decide⟩, ht⟩, by decide⟩, hv⟩,
      by decide⟩

theorem forall_mem_docSteps {d : Dialect} {desc : Option String} (h : ∀ text ∈ desc, P (.doc d text)) :
    ∀ s ∈ docSteps d desc, P s := by
  cases desc with
  | none => exact List.forall_mem_nil _
  | some text => exact List.forall_mem_singleton.mpr (h text rfl)

theorem Field.Tidy.declaration {f : Field} (h : f.Tidy) : OneLine f.declaration := by
  simp only [Field.declaration, oneLine_append]
  exact ⟨⟨⟨⟨h.name, oneLine_optionalMark _⟩, by decide⟩, oneLine_spellingOrAny h.type _⟩, by decide⟩

/-- The description of a field is flattened, so only its name and its type count. -/
theorem Field.oneLine_annotation {f : Field} (h : f.bare.Tidy) : OneLine f.annotation := by
  have hn : OneLine f.name := h.name
  simp only [Field.annotation, oneLine_append]
  refine ⟨⟨⟨⟨⟨by decide, hn⟩, oneLine_optionalMark _⟩, by decide⟩, oneLine_spellingOrAny h.type _⟩, ?_⟩
  split
  · exact oneLine_append.mpr ⟨by decide, oneLine_flatten _⟩
  · decide

theorem oneLine_parentClause {link : String} (hl : OneLine link) {parent : Option String}
    (h : ∀ p ∈ parent, OneLine p) : OneLine (Class.parentClause link parent) := by
  cases parent with
  | none => exact (by decide : OneLine "")
  | some p => exact oneLine_append.mpr ⟨hl, h p rfl⟩

theorem Class.Tidy.header {c : Class} (h : c.Tidy) (scope : Scope) :
    OneLine (c.typeScriptHeader scope) := by
  simp only [Class.typeScriptHeader, oneLine_append]
  exact ⟨⟨⟨⟨oneLine_declare scope, by decide⟩, h.name⟩, oneLine_parentClause (by decide) h.parent⟩,
    by decide⟩

theorem Class.oneLine_lines {c : Class} (h : c.bare.Tidy) : ∀ l ∈ c.lines, OneLine l := by
  have hn : OneLine c.name := h.name
  have hparent : OneLine (Class.parentClause " : " c.parent) :=
    oneLine_parentClause (by decide) h.parent
  have hf : ∀ f ∈ c.fields, OneLine f.annotation := fun f hf =>
    Field.oneLine_annotation (h.fields f.bare (List.mem_map_of_mem hf))
  simp only [Class.lines, List.forall_mem_append, List.forall_mem_cons, List.forall_mem_map,
    List.not_mem_nil, false_implies, implies_true, and_true, oneLine_append]
  exact ⟨⟨⟨⟨by decide, hn⟩, hparent⟩, hf⟩, hn, by decide⟩

theorem Class.ne_empty_of_mem_lines {c : Class} : ∀ l ∈ c.lines, l ≠ "" := by
  simp only [Class.lines, List.forall_mem_append, List.forall_mem_cons, List.forall_mem_map]
  simp [Field.annotation]

theorem Class.forall_mem_fieldSteps {fs : List Field}
    (hd : ∀ f ∈ fs, ∀ text ∈ f.desc, P (.doc .typeScript text))
    (hl : ∀ f ∈ fs, P (.line f.declaration)) :
    ∀ s ∈ fs.flatMap (fun f => docSteps .typeScript f.desc ++ [.line f.declaration]), P s := by
  rw [List.forall_mem_flatMap]
  intro f hf
  rw [List.forall_mem_append, List.forall_mem_singleton]
  exact ⟨forall_mem_docSteps (hd f hf), hl f hf⟩

theorem Class.forall_mem_steps (hP : OnLines P) {c : Class} (h : c.bare.Tidy) {d : Dialect}
    (hd : P (.docIf d c.desc)) (hf : ∀ f ∈ c.fields, ∀ text ∈ f.desc, P (.doc d text))
    (scope : Scope) : ∀ s ∈ c.steps d scope, P s := by
  refine List.forall_mem_cons.mpr ⟨hd, ?_⟩
  cases d with
  | lua =>
    change ∀ s ∈ c.luaSteps, P s
    rw [c.luaSteps_eq, List.forall_mem_map]
    intro l hl
    exact hP.line l (Class.oneLine_lines h l hl) (Class.ne_empty_of_mem_lines l hl)
  | typeScript =>
    have hh : OneLine (c.typeScriptHeader scope) := Class.Tidy.header h scope
    have hl : ∀ f ∈ c.fields, P (.line f.declaration) := by
      intro f hf
      have hone : OneLine f.declaration := (h.fields f.bare (List.mem_map_of_mem hf)).declaration
      exact hP.line _ hone (by simp [Field.declaration])
    simp only [Class.typeScriptSteps]
    split
    · rw [List.forall_mem_singleton]
      exact hP.line _ (oneLine_append.mpr ⟨hh, by decide⟩) (by simp)
    · exact hP.body hh (by simp [Class.typeScriptHeader]) (Class.forall_mem_fieldSteps hf hl)

theorem oneLine_key {name : String} (h : OneLine name) (d : Dialect) : OneLine (Enum.key d name) := by
  have hl := Literal.oneLine_string d name
  cases d with
  | lua =>
    simp only [Enum.key]
    split
    · exact h
    · exact oneLine_append.mpr ⟨oneLine_append.mpr ⟨by decide, hl⟩, by decide⟩
  | typeScript =>
    simp only [Enum.key]
    split
    · exact h
    · exact hl

theorem EnumMember.Tidy.assignment {m : EnumMember} (h : m.Tidy) (c : Enum.Count) (d : Dialect) :
    OneLine (c.assignment d m) := by
  have hn : OneLine (" = " ++ toString c.next.toInt) :=
    oneLine_append.mpr ⟨by decide, oneLine_toString _⟩
  unfold Enum.Count.assignment
  split
  next v hv => exact oneLine_append.mpr ⟨by decide, (h.value v hv).literal _⟩
  next => exact hn
  next =>
    split
    · decide
    · exact hn

theorem EnumMember.Tidy.line {m : EnumMember} (h : m.Tidy) (c : Enum.Count) (d : Dialect) :
    OneLine (Enum.key d m.name ++ c.assignment d m ++ ",") := by
  simp only [oneLine_append]
  exact ⟨⟨oneLine_key h.name d, h.assignment c d⟩, by decide⟩

theorem Enum.Count.forall_mem_entries {d : Dialect} {ms : List EnumMember}
    (hd : ∀ m ∈ ms, ∀ text ∈ m.desc, P (.doc d text))
    (hl : ∀ m ∈ ms, ∀ c : Count, P (.line (Enum.key d m.name ++ c.assignment d m ++ ","))) (c : Count) :
    ∀ s ∈ c.entries d ms, P s := by
  induction ms generalizing c with
  | nil => exact List.forall_mem_nil _
  | cons m ms ih =>
    rw [List.forall_mem_cons] at hd hl
    rw [entries, entry, List.forall_mem_append, List.forall_mem_append, List.forall_mem_singleton]
    exact ⟨⟨forall_mem_docSteps hd.1, hl.1 c⟩, ih hd.2 hl.2 _⟩

theorem Enum.Tidy.header {e : Enum} (h : e.Tidy) (d : Dialect) (scope : Scope) :
    OneLine (e.header d scope) := by
  cases d with
  | lua => exact oneLine_append.mpr ⟨h.name, by decide⟩
  | typeScript =>
    simp only [Enum.header, oneLine_append]
    exact ⟨⟨⟨⟨oneLine_declare scope, by split <;> decide⟩, by decide⟩, h.name⟩, by decide⟩

theorem Enum.forall_mem_steps (hP : OnLines P) {e : Enum} (h : e.bare.Tidy) {d : Dialect}
    (hd : P (.docIf d e.desc)) (hm : ∀ m ∈ e.members, ∀ text ∈ m.desc, P (.doc d text))
    (scope : Scope) : ∀ s ∈ e.steps d scope, P s := by
  have hh : OneLine (e.header d scope) := Enum.Tidy.header h d scope
  have ha : ∀ s ∈ e.annotation d, P s := by
    cases d with
    | lua =>
      rw [Enum.annotation, List.forall_mem_singleton]
      exact hP.line _ (oneLine_append.mpr ⟨by decide, h.name⟩) (by simp)
    | typeScript => exact List.forall_mem_nil _
  have hl : ∀ m ∈ e.members, ∀ c : Count, P (.line (Enum.key d m.name ++ c.assignment d m ++ ",")) := by
    intro m hm c
    have hone : OneLine (Enum.key d m.name ++ c.assignment d m ++ ",") :=
      (h.members m.bare (List.mem_map_of_mem hm)).line c d
    exact hP.line _ hone (by simp)
  have hb : ∀ s ∈ e.body d scope, P s := by
    unfold Enum.body
    split
    · rw [List.forall_mem_singleton]
      exact hP.line _ (oneLine_append.mpr ⟨hh, by decide⟩) (by simp)
    · have hne : e.header d scope ≠ "" := by cases d <;> simp [Enum.header]
      exact hP.body hh hne (Enum.Count.forall_mem_entries hm hl .start)
  exact List.forall_mem_cons.mpr ⟨hd, List.forall_mem_append.mpr ⟨ha, hb⟩⟩

end OnLines

theorem oneLine_intercalate {sep : String} (hs : OneLine sep) {ls : List String}
    (h : ∀ l ∈ ls, OneLine l) : OneLine (sep.intercalate ls) := by
  induction ls with
  | nil => exact (by decide : OneLine "")
  | cons l ls ih =>
    rw [List.forall_mem_cons] at h
    cases ls with
    | nil => simpa using h.1
    | cons k ks =>
      rw [String.intercalate_cons_cons]
      simp only [oneLine_append]
      exact ⟨⟨h.1, hs⟩, ih h.2⟩

theorem Function.Tidy.lines {f : Function} (h : f.Tidy) : ∀ l ∈ f.lines, OneLine l := by
  have hp : ∀ p ∈ f.params, OneLine p.annotation := by
    intro p hp
    obtain ⟨hn, ht⟩ := h.params p hp
    have hd : OneLine ((p.desc.map Doc.flatten).getD "") := by
      cases p.desc with
      | none => decide
      | some text => exact oneLine_flatten text
    simp only [Parameter.annotation, oneLine_append]
    exact ⟨⟨⟨⟨⟨⟨by decide, hn⟩, oneLine_optionalMark _⟩, by decide⟩, oneLine_spellingOrAny ht _⟩,
      by decide⟩, hd⟩
  have hr : ∀ r ∈ f.returns, OneLine r.annotation := by
    intro r hr
    obtain ⟨hn, ht⟩ := h.returns r hr
    have hname : OneLine ((r.name.map (" " ++ ·)).getD "") := by
      cases hc : r.name with
      | none => decide
      | some s => exact oneLine_append.mpr ⟨by decide, hn s hc⟩
    have hd : OneLine ((r.desc.map (" # " ++ Doc.flatten ·)).getD "") := by
      cases r.desc with
      | none => decide
      | some text => exact oneLine_append.mpr ⟨by decide, oneLine_flatten text⟩
    simp only [Return.annotation, oneLine_append]
    exact ⟨⟨⟨by decide, oneLine_spellingOrAny ht _⟩, hname⟩, hd⟩
  have hl : OneLine f.luaParams :=
    oneLine_intercalate (by decide) (List.forall_mem_map.mpr fun p hp => (h.params p hp).1)
  simp only [Function.lines, List.forall_mem_append, List.forall_mem_map, List.forall_mem_singleton,
    oneLine_append]
  exact ⟨⟨hp, hr⟩, ⟨⟨⟨by decide, h.name⟩, by decide⟩, hl⟩, by decide⟩

theorem Function.Tidy.laidOut {f : Function} (h : f.Tidy) {d : Dialect} {s : String}
    (hr : f.render d = .ok s) : LaidOut s (f.lines.map String.toList) where
  isLine := List.forall_mem_map.mpr fun l hl => isLine_of_forall (h.lines l hl)
  rows := by
    cases d with
    | typeScript => cases hr
    | lua =>
      refine ⟨(f.params.map Parameter.annotation ++ f.returns.map Return.annotation).map String.toList,
        ("function " ++ f.name ++ "(" ++ f.luaParams ++ ") end").toList, ?_, by simp, ?_⟩
      · rw [Function.lines, List.map_append, List.map_singleton]
      · rw [Function.toList_render hr, Function.lines, List.map_append, List.map_singleton,
          terminated_append_eq]

theorem Variable.Tidy.steps {v : Variable} (h : v.Tidy) (d : Dialect) (scope : Scope) :
    ∀ s ∈ v.steps d scope, s.Tidy :=
  Variable.forall_mem_steps onLines_tidy h.bare h.desc scope

theorem Class.Tidy.steps {c : Class} (h : c.Tidy) (d : Dialect) (scope : Scope) :
    ∀ s ∈ c.steps d scope, s.Tidy :=
  Class.forall_mem_steps onLines_tidy h.bare h.desc (fun f hf => (h.fields f hf).desc) scope

theorem Enum.Tidy.steps {e : Enum} (h : e.Tidy) (d : Dialect) (scope : Scope) :
    ∀ s ∈ e.steps d scope, s.Tidy :=
  Enum.forall_mem_steps onLines_tidy h.bare h.desc (fun m hm => (h.members m hm).desc) scope

/-! Members. -/

/-- The lines of a member's own text. -/
def Member.lines (d : Dialect) (scope : Scope) : Member → List (List Char)
  | .enum e => rowsFrom d.indent 0 (e.steps d scope)
  | .cls c => rowsFrom d.indent 0 (c.steps d scope)
  | .var v => rowsFrom d.indent 0 (v.steps d scope)
  | .func f => f.lines.map String.toList

theorem Variable.endsInLine_steps (v : Variable) (d : Dialect) (scope : Scope) :
    EndsInLine (v.steps d scope) := by
  cases d with
  | lua => exact ⟨[_, _], _, rfl, by simp⟩
  | typeScript => exact ⟨[_], _, rfl, by simp⟩

/-- Bodies end with a line that closes them. -/
theorem endsInLine_body (before : List Step) (header : String) (body : List Step) :
    EndsInLine (before ++ ([Step.line header, .indent] ++ body ++ [.dedent, .line "\x7d"])) :=
  ⟨before ++ ([Step.line header, .indent] ++ body ++ [.dedent]), "\x7d", by simp, by decide⟩

theorem Class.endsInLine_steps (c : Class) (d : Dialect) (scope : Scope) :
    EndsInLine (c.steps d scope) := by
  obtain ⟨name, parent, fields, desc⟩ := c
  cases d with
  | lua => exact ⟨_ :: _ :: _, _, rfl, by simp⟩
  | typeScript =>
    cases fields with
    | nil => exact ⟨[_], _, rfl, by simp⟩
    | cons f fs => exact endsInLine_body [_] _ _

theorem Enum.endsInLine_steps (e : Enum) (d : Dialect) (scope : Scope) :
    EndsInLine (e.steps d scope) := by
  obtain ⟨name, constant, members, desc⟩ := e
  cases members with
  | nil => exact ⟨_ :: _, _, rfl, by simp⟩
  | cons m ms => exact endsInLine_body (_ :: _) _ _

theorem Member.Tidy.laidOut {m : Member} (h : m.Tidy) {d : Dialect} {scope : Scope} {s : String}
    (hr : m.render d scope = .ok s) : LaidOut s (m.lines d scope) := by
  cases m with
  | enum e =>
    obtain rfl := Except.ok.inj hr
    exact laidOut_render (Enum.Tidy.steps h d scope) (e.endsInLine_steps d scope)
  | cls c =>
    obtain rfl := Except.ok.inj hr
    exact laidOut_render (Class.Tidy.steps h d scope) (c.endsInLine_steps d scope)
  | var v =>
    obtain rfl := Except.ok.inj hr
    exact laidOut_render (Variable.Tidy.steps h d scope) (v.endsInLine_steps d scope)
  | func f => exact Function.Tidy.laidOut h hr

end Ambient
