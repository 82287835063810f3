import Ambient.Proofs.Layout.Member
import Ambient.Proofs.Outcomes
import Mathlib.Data.List.Forall2

/-!
The text of a namespace is its members' own texts, line for line, between its first and its last
line. In TypeScript the members lose the one `declare ` of their headers and move in by a level.
-/
namespace Ambient
open Doc Text Writer

/-! Headers. -/

def declareWord : List Char := "declare ".toList

def isDeclared (l : List Char) : Bool := declareWord.isPrefixOf l

/-- The lines without the `declare ` of the first one that begins with it. -/
def undeclared : List (List Char) → List (List Char)
  | [] => []
  | l :: ls => if isDeclared l then l.drop declareWord.length :: ls else l :: undeclared ls

theorem isDeclared_append (l : List Char) : isDeclared (declareWord ++ l) = true :=
  List.isPrefixOf_iff_prefix.mpr (List.prefix_append declareWord l)

theorem undeclared_append_cons {before : List (List Char)} (h : ∀ l ∈ before, isDeclared l = false)
    (l : List Char) (after : List (List Char)) :
    undeclared (before ++ (declareWord ++ l) :: after) = before ++ l :: after := by
  induction before with
  | nil => simp [undeclared, isDeclared_append]
  | cons b before ih =>
    rw [List.forall_mem_cons] at h
    simp [undeclared, h.1, ih h.2]

/-- A text that begins otherwise is no header. -/
theorem isDeclared_of_head? {l : List Char} (h : l.head? ≠ some 'd') : isDeclared l = false := by
  rw [isDeclared, ← Bool.not_eq_true, List.isPrefixOf_iff_prefix]
  rintro ⟨t, rfl⟩
  exact h rfl

theorem isDeclared_comment {d : Dialect} {text l : String} (h : l ∈ comment d text) :
    isDeclared l.toList = false := by
  obtain ⟨c, hc, hl⟩ := head?_of_mem_comment h
  refine isDeclared_of_head? ?_
  rw [hl]
  rintro ⟨rfl⟩
  exact absurd hc (by decide)

theorem isDeclared_blanks {n : Nat} (hn : 0 < n) (l : List Char) :
    isDeclared (blanks n ++ l) = false := by
  obtain ⟨k, rfl⟩ := Nat.exists_eq_succ_of_ne_zero (Nat.ne_of_gt hn)
  exact isDeclared_of_head? (by simp [blanks, List.replicate_succ])

/-! Declarations at the top and in a namespace. -/

/-- Steps that write rows behind the margin of their level and do not change it. -/
def Writer.Step.IsFlat : Step → Prop
  | .line _ | .doc .. | .docIf .. => True
  | .lines _ | .blank | .indent | .dedent => False

theorem Writer.Step.IsFlat.leveled {s : Step} (h : s.IsFlat) (level : Nat) :
    s.leveled level = level := by
  cases s with
  | line s | doc d s | docIf d s => rfl
  | lines s | blank | indent | dedent => exact h.elim

theorem levelAfter_of_isFlat {ss : List Step} (h : ∀ s ∈ ss, s.IsFlat) (level : Nat) :
    levelAfter level ss = level := by
  induction ss with
  | nil => rfl
  | cons s ss ih =>
    rw [List.forall_mem_cons] at h
    rw [levelAfter, List.foldl_cons, h.1.leveled]
    exact ih h.2

theorem blanks_prefix_rows {s : Step} (h : s.IsFlat) (n : Nat) : ∀ r ∈ s.rows n, blanks n <+: r := by
  have hb : ∀ l, blanks n <+: blanks n ++ l := List.prefix_append _
  have hd : ∀ d text, ∀ r ∈ docRows n d text, blanks n <+: r :=
    fun d text => List.forall_mem_map.mpr fun l _ => hb l.toList
  cases s with
  | line s => exact List.forall_mem_singleton.mpr (hb s.toList)
  | doc d text => exact hd d text
  | docIf d text =>
    rw [Step.rows]
    split
    · simp
    · exact hd d text
  | lines _ | blank | indent | dedent => exact h.elim

theorem blanks_prefix_rowsFrom {ss : List Step} (h : ∀ s ∈ ss, s.IsFlat) (width level : Nat) :
    ∀ r ∈ rowsFrom width level ss, blanks (level * width) <+: r := by
  induction ss with
  | nil => simp [rowsFrom]
  | cons s ss ih =>
    rw [List.forall_mem_cons] at h
    rw [rowsFrom, h.1.leveled, List.forall_mem_append]
    exact ⟨blanks_prefix_rows h.1 _, ih h.2⟩

/-- What follows a header: nothing, or a body and the brace that closes it. -/
theorem isDeclared_body {body : List Step} (h : ∀ s ∈ body, s.IsFlat) :
    ∀ r ∈ rowsFrom 2 0 (.indent :: (body ++ [.dedent, .line "\x7d"])), isDeclared r = false := by
  have hb : ∀ r ∈ rowsFrom 2 1 body, isDeclared r = false := by
    intro r hr
    obtain ⟨l, rfl⟩ := blanks_prefix_rowsFrom h 2 1 r hr
    exact isDeclared_blanks (by decide) l
  rw [rowsFrom, rowsFrom_append, levelAfter_of_isFlat h]
  refine List.forall_mem_append.mpr ⟨List.forall_mem_nil _, List.forall_mem_append.mpr ⟨hb, ?_⟩⟩
  exact List.forall_mem_singleton.mpr (by decide)

/-- Steps of a declaration whose header alone depends on the scope. -/
def IsHeaded (ss : Scope → List Step) : Prop :=
  ∃ desc header rest, (∀ scope, ss scope =
      .docIf .typeScript desc :: .line (scope.declare ++ header) :: rest) ∧
    ∀ r ∈ rowsFrom 2 0 rest, isDeclared r = false

/-- Only the header begins with `declare `, and without it the lines are those in a namespace. -/
theorem IsHeaded.lines {ss : Scope → List Step} (h : IsHeaded ss) :
    rowsFrom 2 0 (ss .inNamespace) = undeclared (rowsFrom 2 0 (ss .topLevel)) ∧
      (rowsFrom 2 0 (ss .topLevel)).countP isDeclared = 1 := by
  obtain ⟨desc, header, rest, hs, hr⟩ := h
  have hrows : ∀ scope, rowsFrom 2 0 (ss scope) = (Step.docIf .typeScript desc).rows 0 ++
      (scope.declare.toList ++ header.toList) :: rowsFrom 2 0 rest := by
    intro scope
    rw [hs, rowsFrom, rowsFrom, ← String.toList_append]
    rfl
  have hd : ∀ r ∈ (Step.docIf .typeScript desc).rows 0, isDeclared r = false := by
    rw [Step.rows]
    split
    · simp
    · exact List.forall_mem_map.mpr fun l hl => isDeclared_comment hl
  have hc : ∀ rs : List (List Char), (∀ r ∈ rs, isDeclared r = false) → rs.countP isDeclared = 0 :=
    fun rs h => List.countP_eq_zero.mpr fun r hr => by simp [h r hr]
  have ht : rowsFrom 2 0 (ss .topLevel) = (Step.docIf .typeScript desc).rows 0 ++
      (declareWord ++ header.toList) :: rowsFrom 2 0 rest := hrows .topLevel
  rw [ht, undeclared_append_cons hd, List.countP_append, List.countP_cons, hc _ hd, hc _ hr,
    isDeclared_append]
  exact ⟨hrows .inNamespace, rfl⟩

theorem Variable.isHeaded (v : Variable) : IsHeaded (v.steps .typeScript) := by
  refine ⟨v.desc, v.keyword ++ " " ++ v.name ++ ": " ++ v.type.spelling .typeScript ++ " = " ++
    Value.literalOrUnset .typeScript v.value ++ ";", [], fun scope => ?_, by simp [rowsFrom]⟩
  simp only [Variable.steps, Variable.lines, String.append_assoc]

theorem Class.isHeaded (c : Class) : IsHeaded (c.steps .typeScript) := by
  obtain ⟨name, parent, fields, desc⟩ := c
  cases fields with
  | nil =>
    refine ⟨desc, "class " ++ name ++ Class.parentClause " extends " parent ++ " \x7b" ++ "\x7d", [],
      fun scope => ?_, by simp [rowsFrom]⟩
    simp only [Class.steps, Class.typeScriptSteps, Class.typeScriptHeader, String.append_assoc]
  | cons f fs =>
    have hbody : ∀ s ∈ (f :: fs).flatMap
        (fun f => docSteps .typeScript f.desc ++ [.line f.declaration]), s.IsFlat :=
      Class.forall_mem_fieldSteps (fun _ _ _ _ => trivial) fun _ _ => trivial
    refine ⟨desc, "class " ++ name ++ Class.parentClause " extends " parent ++ " \x7b", _,
      fun scope => ?_, isDeclared_body hbody⟩
    simp only [Class.steps, Class.typeScriptSteps, Class.typeScriptHeader, String.append_assoc]
    simp

theorem Enum.Count.entries_isFlat (c : Count) (d : Dialect) (ms : List EnumMember) :
    ∀ s ∈ c.entries d ms, s.IsFlat :=
  forall_mem_entries (fun _ _ _ _ => trivial) (fun _ _ _ => trivial) c

theorem Enum.isHeaded (e : Enum) : IsHeaded (e.steps .typeScript) := by
  obtain ⟨name, constant, members, desc⟩ := e
  cases members with
  | nil =>
    refine ⟨desc, (if constant then "const " else "") ++ "enum " ++ name ++ " \x7b" ++ "\x7d", [],
      fun scope => ?_, by simp [rowsFrom]⟩
    simp only [Enum.steps, Enum.annotation, Enum.body, Enum.header, String.append_assoc]
    rfl
  | cons m ms =>
    refine ⟨desc, (if constant then "const " else "") ++ "enum " ++ name ++ " \x7b", _,
      fun scope => ?_, isDeclared_body (Enum.Count.entries_isFlat .start .typeScript (m :: ms))⟩
    simp only [Enum.steps, Enum.annotation, Enum.body, Enum.header, String.append_assoc]
    simp

/-- The lines that a member's own lines become in its namespace. -/
def enclosed (d : Dialect) (ls : List (List Char)) : List (List Char) :=
  match d with
  | .lua => ls
  | .typeScript => undeclared ls

/-- In TypeScript one line of a member that renders is its header. -/
theorem Member.lines_inNamespace (m : Member) (d : Dialect) {s : String}
    (h : m.render d .topLevel = .ok s) :
    (∃ t, m.render d .inNamespace = .ok t) ∧
      m.lines d .inNamespace = enclosed d (m.lines d .topLevel) ∧
      (d = .typeScript → (m.lines d .topLevel).countP isDeclared = 1) := by
  cases d with
  | lua => cases m <;> exact ⟨⟨_, rfl⟩, rfl, nofun⟩
  | typeScript =>
    cases m with
    | enum e => exact ⟨⟨_, rfl⟩, e.isHeaded.lines.1, fun _ => e.isHeaded.lines.2⟩
    | cls c => exact ⟨⟨_, rfl⟩, c.isHeaded.lines.1, fun _ => c.isHeaded.lines.2⟩
    | var v => exact ⟨⟨_, rfl⟩, v.isHeaded.lines.1, fun _ => v.isHeaded.lines.2⟩
    | func f => cases h

/-! Texts. -/

/-- Blocks of lines with an empty line between any two. -/
def separatedLines (blocks : List (List (List Char))) : List (List Char) := [[]].intercalate blocks

/-- The lines of a namespace whose members have these lines. -/
def Namespace.framed (n : Namespace) (d : Dialect) (scope : Scope)
    (blocks : List (List (List Char))) : List (List Char) :=
  match d with
  | .lua => ("--#region " ++ n.name).toList :: separatedLines blocks ++ ["--#endregion".toList]
  | .typeScript =>
    let header := scope.declare ++ "namespace " ++ n.name ++ " \x7b"
    match blocks with
    | [] => [(header ++ "\x7d").toList]
    | blocks =>
      header.toList :: separatedLines (blocks.map fun b => (undeclared b).map (reindent 2)) ++
        ["\x7d".toList]

theorem separatedLines_cons_cons (b c : List (List Char)) (bs : List (List (List Char))) :
    separatedLines (b :: c :: bs) = b ++ [] :: separatedLines (c :: bs) := by
  rw [separatedLines, List.intercalate_cons_cons, List.append_assoc]
  rfl

theorem isLine_separatedLines {blocks : List (List (List Char))} (h : ∀ b ∈ blocks, ∀ l ∈ b, IsLine l) :
    ∀ l ∈ separatedLines blocks, IsLine l := by
  induction blocks with
  | nil => simp [separatedLines]
  | cons b blocks ih =>
    rw [List.forall_mem_cons] at h
    cases blocks with
    | nil => simpa [separatedLines] using h.1
    | cons c blocks =>
      rw [separatedLines_cons_cons]
      refine List.forall_mem_append.mpr ⟨h.1, List.forall_mem_cons.mpr ⟨by decide, ih h.2⟩⟩

theorem separated_cons_cons (t u : String) (texts : List String) :
    Namespace.separated (t :: u :: texts) = .lines t :: .blank :: Namespace.separated (u :: texts) :=
  rfl

theorem levelAfter_separated (level : Nat) (texts : List String) :
    levelAfter level (Namespace.separated texts) = level := by
  induction texts with
  | nil => rfl
  | cons t texts ih =>
    cases texts with
    | nil => rfl
    | cons u us =>
      rw [separated_cons_cons]
      exact ih

theorem rowsFrom_separated (width level : Nat) (texts : List String) :
    rowsFrom width level (Namespace.separated texts) =
      separatedLines (texts.map fun t => (lineList t.toList).map (reindent (level * width))) := by
  induction texts with
  | nil => rfl
  | cons t texts ih =>
    cases texts with
    | nil => simp [Namespace.separated, separatedLines, rowsFrom, Step.rows]
    | cons u us =>
      rw [List.map_cons] at ih
      rw [separated_cons_cons, List.map_cons, List.map_cons, separatedLines_cons_cons, ← ih]
      rfl

theorem reindent_zero (l : List Char) : reindent 0 l = l := by
  unfold reindent
  split
  next h => exact h.symm
  next => rfl

theorem isLine_reindent {l : List Char} (h : IsLine l) (n : Nat) : IsLine (reindent n l) := by
  unfold reindent
  split
  · decide
  · exact (isLine_blanks n).append h

/-! Namespaces. -/

/-- A member's own text, and what its namespace writes of it. -/
structure Encloses (d : Dialect) (own inner : String) : Prop where
  lines : lineList inner.toList = enclosed d (pieces own.toList)
  isLine : ∀ l ∈ lineList inner.toList, IsLine l
  single : d = .typeScript → (pieces own.toList).countP isDeclared = 1

section Encloses

variable {d : Dialect} {texts inners : List String}

theorem isLine_of_encloses (h : List.Forall₂ (Encloses d) texts inners) :
    ∀ t ∈ inners, ∀ l ∈ lineList t.toList, IsLine l := by
  induction h with
  | nil => exact List.forall_mem_nil _
  | cons he _ ih => exact List.forall_mem_cons.mpr ⟨he.isLine, ih⟩

theorem countP_of_encloses (h : List.Forall₂ (Encloses d) texts inners) :
    ∀ t ∈ texts, d = .typeScript → (pieces t.toList).countP isDeclared = 1 := by
  induction h with
  | nil => exact List.forall_mem_nil _
  | cons he _ ih => exact List.forall_mem_cons.mpr ⟨he.single, ih⟩

theorem map_lineList_of_encloses (h : List.Forall₂ (Encloses d) texts inners) :
    inners.map (fun t => lineList t.toList) = texts.map fun t => enclosed d (pieces t.toList) := by
  induction h with
  | nil => rfl
  | cons he _ ih => rw [List.map_cons, List.map_cons, he.lines, ih]

end Encloses

theorem Member.Tidy.encloses {m : Member} (h : m.Tidy) {d : Dialect} {own : String}
    (ho : m.render d .topLevel = .ok own) :
    ∃ inner, m.render d .inNamespace = .ok inner ∧ Encloses d own inner := by
  obtain ⟨⟨inner, hi⟩, hl, hs⟩ := m.lines_inNamespace d ho
  have hown := (h.laidOut ho).pieces_eq
  have hin := (h.laidOut hi).lineList_eq
  refine ⟨inner, hi, ?_, ?_, ?_⟩
  · rw [hin, hown, hl]
  · rw [hin]
    exact (h.laidOut hi).isLine
  · rw [hown]
    exact hs

theorem mapM_encloses {ms : List Member} (h : ∀ m ∈ ms, m.Tidy) {d : Dialect} {texts : List String}
    (ht : ms.mapM (Member.render d .topLevel) = .ok texts) :
    ∃ inners, ms.mapM (Member.render d .inNamespace) = .ok inners ∧
      List.Forall₂ (Encloses d) texts inners := by
  have hm : ∀ m ∈ ms, ∃ own inner, m.render d .topLevel = .ok own ∧
      m.render d .inNamespace = .ok inner ∧ Encloses d own inner := by
    intro m hm
    obtain ⟨own, ho⟩ := exists_mapM_eq_ok_iff.mp ⟨texts, ht⟩ m hm
    obtain ⟨inner, hi, he⟩ := (h m hm).encloses ho
    exact ⟨own, inner, ho, hi, he⟩
  obtain ⟨owns, inners, ho, hi, he⟩ := exists_mapM_related hm
  obtain rfl := Except.ok.inj (ho.symm.trans ht)
  exact ⟨inners, hi, he⟩

/-- What a frame sets around the rows of the members. -/
theorem rowsFrom_frame (width : Nat) (first last : String) (inners : List String) :
    rowsFrom width 0 (.line first :: (Namespace.separated inners ++ [.line last])) =
      first.toList :: separatedLines (inners.map fun t => lineList t.toList) ++ [last.toList] := by
  have hz : ∀ ls : List (List Char), ls.map (reindent 0) = ls := fun ls => by
    rw [funext reindent_zero, List.map_id']
  rw [rowsFrom, rowsFrom_append, levelAfter_separated, rowsFrom_separated]
  simp [Step.leveled, hz, rowsFrom, Step.rows, blanks]

/-- The same one level further in. -/
theorem rowsFrom_braces (width : Nat) (first last : String) (inners : List String) :
    rowsFrom width 0 (.line first :: .indent :: (Namespace.separated inners ++ [.dedent, .line last])) =
      first.toList :: separatedLines (inners.map fun t => (lineList t.toList).map (reindent width)) ++
        [last.toList] := by
  rw [rowsFrom, rowsFrom]
  simp only [Step.leveled]
  rw [rowsFrom_append, levelAfter_separated, rowsFrom_separated, Nat.zero_add, Nat.one_mul]
  simp [rowsFrom, Step.rows, Step.leveled, blanks]

/-- The rows of a namespace are its frame around the lines of its members. -/
theorem Namespace.rowsFrom_layout (n : Namespace) {d : Dialect} (scope : Scope)
    {texts inners : List String} (h : List.Forall₂ (Encloses d) texts inners) :
    rowsFrom d.indent 0 (Namespace.layout n.name d scope inners) =
      n.framed d scope (texts.map fun t => pieces t.toList) := by
  have hl := map_lineList_of_encloses h
  cases d with
  | lua =>
    have hr := rowsFrom_frame Dialect.lua.indent ("--#region " ++ n.name) "--#endregion" inners
    rw [hl] at hr
    exact hr
  | typeScript =>
    cases h with
    | nil => rfl
    | @cons t i texts inners he h =>
      have hr := rowsFrom_braces 2 (scope.declare ++ "namespace " ++ n.name ++ " \x7b") "\x7d" (i :: inners)
      have hm : (i :: inners).map (fun t => (lineList t.toList).map (reindent 2)) =
          ((t :: texts).map fun t => pieces t.toList).map fun b => (undeclared b).map (reindent 2) := by
        have hm := congrArg (List.map (List.map (reindent 2))) hl
        rw [List.map_map, List.map_map] at hm
        rw [List.map_map]
        exact hm
      rw [hm] at hr
      exact hr

theorem isLine_frame {first last : String} (hf : OneLine first) (hl : OneLine last)
    {blocks : List (List (List Char))} (h : ∀ b ∈ blocks, ∀ l ∈ b, IsLine l) :
    ∀ l ∈ first.toList :: separatedLines blocks ++ [last.toList], IsLine l := by
  refine List.forall_mem_append.mpr ⟨List.forall_mem_cons.mpr ⟨?_, isLine_separatedLines h⟩, ?_⟩
  · exact isLine_of_forall hf
  · exact List.forall_mem_singleton.mpr (isLine_of_forall hl)

theorem Namespace.Tidy.isLine_layout {n : Namespace} (h : n.Tidy) (d : Dialect) (scope : Scope)
    {inners : List String} (hi : ∀ t ∈ inners, ∀ l ∈ lineList t.toList, IsLine l) :
    ∀ l ∈ rowsFrom d.indent 0 (Namespace.layout n.name d scope inners), IsLine l := by
  have hh : OneLine (scope.declare ++ "namespace " ++ n.name ++ " \x7b") := by
    simp only [oneLine_append]
    exact ⟨⟨⟨oneLine_declare scope, by decide⟩, h.name⟩, by decide⟩
  cases d with
  | lua =>
    have hr := rowsFrom_frame Dialect.lua.indent ("--#region " ++ n.name) "--#endregion" inners
    have hn : OneLine ("--#region " ++ n.name) := oneLine_append.mpr ⟨by decide, h.name⟩
    have hf := isLine_frame hn (by decide : OneLine "--#endregion") (List.forall_mem_map.mpr hi)
    rw [← hr] at hf
    exact hf
  | typeScript =>
    cases inners with
    | nil =>
      refine List.forall_mem_singleton.mpr (isLine_of_forall ?_)
      exact oneLine_append.mpr ⟨hh, by decide⟩
    | cons t inners =>
      have hr := rowsFrom_braces 2 (scope.declare ++ "namespace " ++ n.name ++ " \x7b") "\x7d"
        (t :: inners)
      have hf := isLine_frame hh (by decide : OneLine "\x7d")
        (List.forall_mem_map.mpr fun t ht => List.forall_mem_map.mpr fun l hl =>
          isLine_reindent (hi t ht l hl) 2)
      rw [← hr] at hf
      exact hf

/-- A namespace ends with a line of its own. -/
theorem Namespace.layout_eq_concat (n : Namespace) (d : Dialect) (scope : Scope)
    (inners : List String) : ∃ ss s, Namespace.layout n.name d scope inners = ss ++ [.line s] := by
  cases d with
  | lua => exact ⟨_ :: Namespace.separated inners, _, rfl⟩
  | typeScript =>
    cases inners with
    | nil => exact ⟨[], _, rfl⟩
    | cons t inners =>
      refine ⟨[.line (scope.declare ++ "namespace " ++ n.name ++ " \x7b"), .indent] ++
        Namespace.separated (t :: inners) ++ [.dedent], "\x7d", ?_⟩
      rw [List.append_assoc _ [Step.dedent]]
      rfl

/--
A namespace holds its members' own texts and nothing else. In Lua they stand between two lines of
comment; in TypeScript between braces, without the one `declare ` of each and moved in by two spaces.
Each line of the namespace is a line of one member, an empty one between two, or the first or last.
-/
theorem Namespace.render_members {n : Namespace} (h : n.Tidy) {d : Dialect} {texts : List String}
    (ht : n.members.mapM (Member.render d .topLevel) = .ok texts) (scope : Scope) :
    ∃ text, n.render d scope = .ok text ∧
      text.toList = ['\n'].intercalate (n.framed d scope (texts.map fun t => pieces t.toList)) ∧
      pieces text.toList = n.framed d scope (texts.map fun t => pieces t.toList) ∧
      ∀ t ∈ texts, d = .typeScript → (pieces t.toList).countP isDeclared = 1 := by
  obtain ⟨inners, hi, he⟩ := mapM_encloses (fun m hm => h.member hm) ht
  -- The last row is a line, so the writer takes off the break that it has set behind it.
  obtain ⟨ss, s, hs⟩ := n.layout_eq_concat d scope inners
  have hlast := rowsFrom_concat_line d.indent 0 ss s
  rw [← hs] at hlast
  have htext := toList_render hlast
  have hl := h.isLine_layout d scope (isLine_of_encloses he)
  rw [hlast] at hl
  rw [n.rowsFrom_layout scope he] at hlast
  refine ⟨_, Namespace.render_of_mapM hi scope, ?_, ?_, countP_of_encloses he⟩
  · rw [htext, terminated_append_eq, hlast]
  · rw [htext, pieces_terminated hl, hlast]

/-! A namespace of an enumeration, described over two lines, and a variable. -/

namespace Palette

def shade : Enum :=
  { name := "Shade", members := [{ name := "Red" }, { name := "Green", desc := some "grass" }],
    desc := "Colours.\n\nNamed." }

def dark : Variable := { name := "Dark", value := some (.bool true) }

def space : Namespace := { name := "palette", enums := [shade], vars := [dark] }

theorem shade_tidy : shade.Tidy where
  name := by decide
  members := List.forall_mem_cons.mpr ⟨⟨by decide, by simp, by simp⟩,
    List.forall_mem_singleton.mpr ⟨by decide, by simp, by simp [Unreturned]; decide⟩⟩
  desc := by unfold Unreturned; decide

theorem dark_tidy : dark.Tidy where
  name := by decide
  type := nofun
  value := by simp [dark, Value.OneLine]
  desc := by unfold Unreturned; decide

theorem space_tidy : space.Tidy where
  name := by decide
  enums := List.forall_mem_singleton.mpr shade_tidy
  classes := by simp [space]
  vars := List.forall_mem_singleton.mpr dark_tidy
  functions := by simp [space]

theorem render_members_palette :
    space.Tidy ∧
    space.members.mapM (Member.render .typeScript .topLevel) =
      .ok [shade.render .typeScript .topLevel, dark.render .typeScript .topLevel] ∧
    ∃ text, space.render .typeScript .topLevel = .ok text ∧
      pieces text.toList = [
        "declare namespace palette \x7b",
        "  /**",
        "   * Colours.",
        "   *",
        "   * Named.",
        "   */",
        "  enum Shade \x7b",
        "    Red,",
        "    /** grass */",
        "    Green,",
        "  \x7d",
        "",
        "  let Dark: any = true;",
        "\x7d"].map String.toList := by
  have hm : space.members.mapM (Member.render .typeScript .topLevel) =
      .ok [shade.render .typeScript .topLevel, dark.render .typeScript .topLevel] := rfl
  obtain ⟨text, ht, -, hp, -⟩ := Namespace.render_members space_tidy hm .topLevel
  exact ⟨space_tidy, hm, text, ht, hp.trans (by decide +kernel)⟩

end Palette
end Ambient
