import Ambient.Proofs.Layout.Relaid
import Ambient.Proofs.Outcomes

/-!
Raw values and named types. A declaration's own text has them as they stand; a namespace reads that
text in lines and writes it again, and they go through it unless a line break or a margin changes them.
-/
namespace Ambient
open Doc Text Writer

/-! One line of a declaration around a text. -/

/-- A line with a text in it, between steps that do not depend on the text. -/
structure Gap where
  before : List Step
  lead : String
  tail : String
  after : List Step

namespace Gap

def steps (s : Gap) (text : String) : List Step :=
  s.before ++ .line (s.lead ++ text ++ s.tail) :: s.after

def front (s : Gap) (d : Dialect) : List Char :=
  terminated (rowsFrom d.indent 0 s.before) ++ blanks (levelAfter 0 s.before * d.indent) ++
    s.lead.toList

/-- What follows the text, without the last line break. -/
def back (s : Gap) (d : Dialect) : List Char :=
  s.tail.toList ++ ('\n' :: terminated (rowsFrom d.indent (levelAfter 0 s.before) s.after)).dropLast

theorem toList_render_steps (s : Gap) (d : Dialect) (text : String) :
    (Writer.render d (s.steps text)).toList = s.front d ++ text.toList ++ s.back d := by
  let rest := '\n' :: terminated (rowsFrom d.indent (levelAfter 0 s.before) s.after)
  have hrun : (((empty d.indent).run (s.steps text)).text).toList =
      s.front d ++ text.toList ++ s.tail.toList ++ rest := by
    rw [toList_run_text, steps, rowsFrom_append, rowsFrom]
    simp [empty, front, rest, Step.rows, Step.leveled]
  have hne : rest ≠ [] := List.cons_ne_nil _ _
  have hlast : (s.front d ++ text.toList ++ s.tail.toList ++ rest).getLast? = some '\n' := by
    rw [List.getLast?_append_of_ne_nil _ hne]
    exact getLast?_terminated (List.cons_ne_nil [] (rowsFrom _ _ s.after))
  rw [Writer.render, build, dropFinalBreak, hrun, if_pos hlast, String.toList_ofList,
    List.dropLast_append_of_ne_nil hne, back, List.append_assoc, ← List.append_assoc]

end Gap

/-! Places. -/

theorem Enum.Count.entries_append (d : Dialect) (c : Enum.Count) (ms ns : List EnumMember) :
    c.entries d (ms ++ ns) = c.entries d ms ++ (ms.foldl after c).entries d ns := by
  induction ms generalizing c with
  | nil => rfl
  | cons m ms ih => simp [entries, ih]

/-- A place for a raw value or a named type in a member. -/
inductive Place
  | value (v : Variable)
  | type (v : Variable)
  | field (c : Class) (before : List Field) (f : Field) (after : List Field)
  | entry (e : Enum) (before : List EnumMember) (m : EnumMember) (after : List EnumMember)

namespace Place

/-- The member with a text in this place. -/
def fill : Place → String → Member
  | .value v, text => .var { v with value := some (.raw text) }
  | .type v, text => .var { v with type := .named text }
  | .field c before f after, text =>
    .cls { c with fields := before ++ { f with type := some (.named text) } :: after }
  | .entry e before m after, text =>
    .enum { e with members := before ++ { m with value := some (.raw text) } :: after }

/-- The character right behind the place, if the declaration goes on there. -/
def next (d : Dialect) : Place → Option Char
  | .value _ => match d with
    | .lua => none
    | .typeScript => some ';'
  | .type _ => match d with
    | .lua => some '\n'
    | .typeScript => some ' '
  | .field _ _ f _ => match d with
    | .lua => if f.desc.isSome then some ' ' else some '\n'
    | .typeScript => some ';'
  | .entry .. => some ','

def gap (d : Dialect) (scope : Scope) : Place → Gap
  | .value v => match d with
    | .lua =>
      { before := [.docIf d v.desc, .line ("---@type " ++ v.type.spelling d)]
        lead := v.name ++ " = "
        tail := ""
        after := [] }
    | .typeScript =>
      { before := [.docIf d v.desc]
        lead := scope.declare ++ v.keyword ++ " " ++ v.name ++ ": " ++ v.type.spelling d ++ " = "
        tail := ";"
        after := [] }
  | .type v => match d with
    | .lua =>
      { before := [.docIf d v.desc]
        lead := "---@type "
        tail := ""
        after := [.line (v.name ++ " = " ++ Value.literalOrUnset d v.value)] }
    | .typeScript =>
      { before := [.docIf d v.desc]
        lead := scope.declare ++ v.keyword ++ " " ++ v.name ++ ": "
        tail := " = " ++ Value.literalOrUnset d v.value ++ ";"
        after := [] }
  | .field c before f after => match d with
    | .lua =>
      { before := .docIf d c.desc ::
          .line ("---@class " ++ c.name ++ Class.parentClause " : " c.parent) ::
          before.map fun f => .line f.annotation
        lead := "---@field " ++ f.name ++ optionalMark f.optional ++ " "
        tail := match f.desc with
          | some text => " " ++ Doc.flatten text
          | none => ""
        after := after.map (fun f => .line f.annotation) ++ [.line (c.name ++ " = \x7b\x7d")] }
    | .typeScript =>
      { before := .docIf d c.desc :: .line (c.typeScriptHeader scope) :: .indent ::
          before.flatMap (fun f => docSteps d f.desc ++ [.line f.declaration]) ++ docSteps d f.desc
        lead := f.name ++ optionalMark f.optional ++ ": "
        tail := ";"
        after := after.flatMap (fun f => docSteps d f.desc ++ [.line f.declaration]) ++
          [.dedent, .line "\x7d"] }
  | .entry e before m after =>
    { before := .docIf d e.desc :: e.annotation d ++ [.line (e.header d scope), .indent] ++
        Enum.Count.start.entries d before ++ docSteps d m.desc
      lead := Enum.key d m.name ++ " = "
      tail := ","
      after := Enum.Count.entries ⟨(before.foldl Enum.Count.after .start).next, false⟩ d after ++
        [.dedent, .line "\x7d"] }

theorem steps_fill_value (v : Variable) (d : Dialect) (scope : Scope) (text : String) :
    Variable.steps { v with value := some (.raw text) } d scope =
      (gap d scope (.value v)).steps text := by
  cases d with
  | lua =>
    simp only [gap, Gap.steps, Variable.steps, Variable.lines, Value.literalOrUnset, Value.literal,
      String.append_empty, List.cons_append, List.nil_append]
  | typeScript => rfl

theorem steps_fill_type (v : Variable) (d : Dialect) (scope : Scope) (text : String) :
    Variable.steps { v with type := .named text } d scope = (gap d scope (.type v)).steps text := by
  cases d with
  | lua =>
    simp only [gap, Gap.steps, Variable.steps, Variable.lines, TypeRef.spelling, String.append_empty,
      List.cons_append, List.nil_append]
  | typeScript =>
    simp only [gap, Gap.steps, Variable.steps, Variable.lines, TypeRef.spelling, Variable.keyword,
      String.append_assoc, List.cons_append, List.nil_append]

theorem steps_fill_field (c : Class) (before : List Field) (f : Field) (after : List Field)
    (d : Dialect) (scope : Scope) (text : String) :
    Class.steps { c with fields := before ++ { f with type := some (.named text) } :: after } d scope =
      (gap d scope (.field c before f after)).steps text := by
  cases d with
  | lua =>
    simp only [gap, Gap.steps, Class.steps, Class.luaSteps, List.map_append, List.map_cons,
      List.cons_append, List.append_assoc]
    rfl
  | typeScript =>
    have hs : Class.typeScriptSteps
        { c with fields := before ++ { f with type := some (.named text) } :: after } scope =
        [.line (c.typeScriptHeader scope), .indent] ++
          (before ++ { f with type := some (.named text) } :: after).flatMap (fun f =>
            docSteps .typeScript f.desc ++ [.line f.declaration]) ++ [.dedent, .line "\x7d"] := by
      cases before <;> rfl
    simp only [gap, Gap.steps, Class.steps, hs, List.flatMap_append, List.flatMap_cons,
      List.cons_append, List.append_assoc, List.nil_append]
    rfl

theorem steps_fill_entry (e : Enum) (before : List EnumMember) (m : EnumMember)
    (after : List EnumMember) (d : Dialect) (scope : Scope) (text : String) :
    Enum.steps { e with members := before ++ { m with value := some (.raw text) } :: after } d scope =
      (gap d scope (.entry e before m after)).steps text := by
  have hs : Enum.body { e with members := before ++ { m with value := some (.raw text) } :: after } d
      scope = [.line (e.header d scope), .indent] ++ Enum.Count.start.entries d
        (before ++ { m with value := some (.raw text) } :: after) ++ [.dedent, .line "\x7d"] := by
    cases before <;> rfl
  have hm : ∀ c : Enum.Count, c.entries d ({ m with value := some (.raw text) } :: after) =
      docSteps d m.desc ++ .line (Enum.key d m.name ++ " = " ++ text ++ ",") ::
        Enum.Count.entries ⟨c.next, false⟩ d after := fun c => by
    simp only [Enum.Count.entries, Enum.Count.entry, Enum.Count.assignment, Value.literal,
      Enum.Count.after, List.append_assoc, String.append_assoc, List.singleton_append]
  simp only [gap, Gap.steps, Enum.steps, hs, Enum.Count.entries_append, hm, List.cons_append,
    List.append_assoc, List.nil_append]
  rfl

theorem render_fill (p : Place) (d : Dialect) (scope : Scope) (text : String) :
    (p.fill text).render d scope = .ok (Writer.render d ((p.gap d scope).steps text)) := by
  cases p with
  | value v => exact congrArg (Except.ok ∘ Writer.render d) (steps_fill_value v d scope text)
  | type v => exact congrArg (Except.ok ∘ Writer.render d) (steps_fill_type v d scope text)
  | field c before f after =>
    exact congrArg (Except.ok ∘ Writer.render d) (steps_fill_field c before f after d scope text)
  | entry e before m after =>
    exact congrArg (Except.ok ∘ Writer.render d) (steps_fill_entry e before m after d scope text)

theorem getLast?_append_space (s : String) {t : String} (h : t.toList.getLast? = some ' ') :
    (s ++ t).toList.getLast? = some ' ' := by
  rw [String.toList_append, List.getLast?_append, h]
  rfl

/-- The text stands behind a space. -/
theorem exists_lead (p : Place) (d : Dialect) (scope : Scope) :
    ∃ u, (p.gap d scope).lead.toList = u ++ [' '] := by
  refine List.getLast?_eq_some_iff.mp ?_
  cases p with
  | type v =>
    cases d with
    | lua => exact (by decide : "---@type ".toList.getLast? = some ' ')
    | typeScript => exact getLast?_append_space _ (by decide)
  | _ => cases d <;> exact getLast?_append_space _ (by decide)

theorem head?_rows_concat (width level : Nat) (ss : List Step) (s : String) :
    ('\n' :: terminated (rowsFrom width level (ss ++ [.line s]))).dropLast.head? = some '\n' := by
  have hne : terminated (rowsFrom width level (ss ++ [.line s])) ≠ [] := by
    rw [rowsFrom_concat_line]
    simp
  rw [List.dropLast_cons_of_ne_nil hne, List.head?_cons]

theorem head?_back (p : Place) (d : Dialect) (scope : Scope) :
    ((p.gap d scope).back d).head? = p.next d := by
  cases p with
  | type v =>
    cases d with
    | lua => exact head?_rows_concat _ _ [] _
    | typeScript => simp [gap, Gap.back, next]
  | field c before f after =>
    cases d with
    | lua =>
      cases h : f.desc with
      | none =>
        simp only [gap, Gap.back, next, h]
        exact head?_rows_concat _ _ _ _
      | some text => simp [gap, Gap.back, next, h]
    | typeScript => simp [gap, Gap.back, next]
  | value v => cases d <;> simp [gap, Gap.back, next, rowsFrom]
  | entry e before m after => simp [gap, Gap.back, next]

end Place

/-! One member among the others of a namespace. -/

theorem exists_separatedLines (bs cs : List (List (List Char))) :
    ∃ pre post, ∀ b, separatedLines (bs ++ b :: cs) = pre ++ b ++ post := by
  induction bs with
  | nil =>
    cases cs with
    | nil => exact ⟨[], [], fun b => by simp [separatedLines]⟩
    | cons c cs =>
      exact ⟨[], [] :: separatedLines (c :: cs), fun b => separatedLines_cons_cons b c cs⟩
  | cons b' bs ih =>
    obtain ⟨pre, post, h⟩ := ih
    refine ⟨b' ++ [] :: pre, post, fun b => ?_⟩
    have hc : ∃ c ds, bs ++ b :: cs = c :: ds := by
      cases bs <;> simp
    obtain ⟨c, ds, hc⟩ := hc
    rw [List.cons_append, hc, separatedLines_cons_cons, ← hc, h]
    simp

/-- What a namespace moves its members in by. -/
def Dialect.memberMargin : Dialect → Nat
  | .lua => 0
  | .typeScript => Dialect.typeScript.indent

theorem exists_rowsFrom_layout (name : String) (d : Dialect) (scope : Scope) :
    ∃ first last : String, ∀ texts ≠ [],
      rowsFrom d.indent 0 (Namespace.layout name d scope texts) =
        first.toList ::
          separatedLines (texts.map fun t => (lineList t.toList).map (reindent d.memberMargin)) ++
          [last.toList] := by
  cases d with
  | lua =>
    refine ⟨"--#region " ++ name, "--#endregion", fun texts _ => ?_⟩
    have hz : ∀ ls : List (List Char), ls.map (reindent 0) = ls := fun ls => by
      rw [funext reindent_zero, List.map_id']
    simp only [Dialect.memberMargin, hz]
    exact rowsFrom_frame Dialect.lua.indent _ _ texts
  | typeScript =>
    refine ⟨scope.declare ++ "namespace " ++ name ++ " \x7b", "\x7d", fun texts hne => ?_⟩
    cases texts with
    | nil => exact absurd rfl hne
    | cons t texts => exact rowsFrom_braces 2 _ _ (t :: texts)

/-- The text of one member is laid out again between what does not depend on it. -/
theorem exists_render_layout (name : String) (d : Dialect) (scope : Scope) (ts us : List String) :
    ∃ front back, ∀ t, (Writer.render d (Namespace.layout name d scope (ts ++ t :: us))).toList =
      front ++ relaid d.memberMargin true t.toList ++ back := by
  obtain ⟨first, last, hrows⟩ := exists_rowsFrom_layout name d scope
  obtain ⟨pre, post, hs⟩ := exists_separatedLines
    (ts.map fun t => (lineList t.toList).map (reindent d.memberMargin))
    (us.map fun t => (lineList t.toList).map (reindent d.memberMargin))
  refine ⟨terminated (first.toList :: pre), terminated post ++ last.toList, fun t => ?_⟩
  have h := hrows (ts ++ t :: us) (by simp)
  rw [List.map_append, List.map_cons, hs] at h
  rw [toList_render h, ← terminated_reindent]
  simp only [terminated_cons, terminated_append, List.append_assoc, List.cons_append]

/-- A namespace with a text has the texts of the members around each of them. -/
theorem exists_texts_of_render {n : Namespace} {ms₁ ms₂ : List Member} {m : Member} {d : Dialect}
    {scope : Scope} {text : String} (hm : n.members = ms₁ ++ m :: ms₂)
    (h : n.render d scope = .ok text) :
    ∃ ts t us, ms₁.mapM (Member.render d .inNamespace) = .ok ts ∧ m.render d .inNamespace = .ok t ∧
      ms₂.mapM (Member.render d .inNamespace) = .ok us ∧
      text = Writer.render d (Namespace.layout n.name d scope (ts ++ t :: us)) := by
  rw [n.render_eq, hm, List.mapM_append, List.mapM_cons] at h
  obtain ⟨texts, hts, rfl⟩ := map_eq_ok_iff.mp h
  obtain ⟨ts, hms₁, hts⟩ := bind_eq_ok_iff.mp hts
  obtain ⟨tus, htus, hts⟩ := bind_eq_ok_iff.mp hts
  obtain ⟨t, ht, htus⟩ := bind_eq_ok_iff.mp htus
  obtain ⟨us, hus, htus⟩ := bind_eq_ok_iff.mp htus
  obtain rfl := Except.ok.inj htus
  obtain rfl := Except.ok.inj hts
  exact ⟨ts, t, us, hms₁, ht, hus, rfl⟩

/-! What becomes of a text in its place. -/

/--
The text goes through a namespace as it is: no carriage return comes before a line feed, and in
TypeScript only more line breaks and then spaces follow its first one.
-/
def Survives (d : Dialect) (next : Option Char) (text : String) : Prop :=
  ¬ "\r\n".toList <:+: text.toList ++ next.toList ∧
    (d = .typeScript →
      ∀ c ∈ (text.toList.dropWhile (· ≠ '\n')).dropWhile (· = '\n'), c = ' ')

theorem untouched_iff_survives (d : Dialect) (next : Option Char) (text : String) :
    Untouched d.memberMargin false next text.toList ↔ Survives d next text := by
  cases d
  · simp [Untouched, Unmoved, Survives, Dialect.memberMargin]
  · simp [Untouched, Unmoved, Survives, Dialect.memberMargin, Dialect.indent]

theorem Place.toList_render (p : Place) (d : Dialect) (scope : Scope) :
    ∃ front back, ∀ text, ∃ own, (p.fill text).render d scope = .ok own ∧
      own.toList = front ++ text.toList ++ back := by
  refine ⟨(p.gap d scope).front d, (p.gap d scope).back d, fun text => ?_⟩
  exact ⟨_, p.render_fill d scope text, (p.gap d scope).toList_render_steps d text⟩

theorem Alias.toList_render (a : Alias) (d : Dialect) (scope : Scope) :
    ∃ front back, ∀ text, (Alias.render { a with type := .named text } d scope).toList =
      front ++ text.toList ++ back := by
  let gap : Gap := match d with
    | .lua => ⟨[.docIf d a.desc], "---@alias " ++ a.name ++ " ", "", []⟩
    | .typeScript => ⟨[.docIf d a.desc], scope.declare ++ "type " ++ a.name ++ " = ", ";", []⟩
  have hs : ∀ text, Alias.steps { a with type := .named text } d scope = gap.steps text := by
    intro text
    cases d with
    | lua => simp [gap, Gap.steps, Alias.steps, Alias.line, TypeRef.spelling]
    | typeScript => rfl
  refine ⟨gap.front d, gap.back d, fun text => ?_⟩
  rw [Alias.render, hs, gap.toList_render_steps]

/-- The own text of a member inside a namespace, from the space before the place on. -/
theorem Place.exists_own (p : Place) (d : Dialect) (scope : Scope) :
    ∃ u k, k.head? = p.next d ∧ ∀ text, ∃ own, (p.fill text).render d scope = .ok own ∧
      own.toList = u ++ ' ' :: (text.toList ++ k) := by
  obtain ⟨u, hu⟩ := p.exists_lead d scope
  refine ⟨terminated (rowsFrom d.indent 0 (p.gap d scope).before) ++
    blanks (levelAfter 0 (p.gap d scope).before * d.indent) ++ u, (p.gap d scope).back d,
    p.head?_back d scope, fun text => ⟨_, p.render_fill d scope text, ?_⟩⟩
  rw [Gap.toList_render_steps, Gap.front, hu]
  simp only [List.append_assoc, List.cons_append, List.nil_append]

/-- A namespace lays the text out again at a place that the text has no part in. -/
theorem Place.exists_relaid (p : Place) (d : Dialect) (scope : Scope) (name : String)
    (ms₁ ms₂ : List Member) :
    ∃ front k, k.head? = p.next d ∧ ∀ (e : String) (n : Namespace) (text : String), n.name = name →
      n.members = ms₁ ++ p.fill e :: ms₂ → n.render d scope = .ok text →
        ∃ back, text.toList = front ++ (relaid d.memberMargin false (e.toList ++ k) ++ back) := by
  obtain ⟨u, k, hk, hown⟩ := p.exists_own d .inNamespace
  obtain ⟨before, hbefore⟩ := exists_relaid_append d.memberMargin true u
  -- What the other members render as does not depend on the text; if one has none, nothing has.
  cases hts : ms₁.mapM (Member.render d .inNamespace) with
  | error err =>
    refine ⟨[], k, hk, fun e n text _ hm hr => ?_⟩
    obtain ⟨ts, t, us, hts', -⟩ := exists_texts_of_render hm hr
    cases hts.symm.trans hts'
  | ok ts =>
    cases hus : ms₂.mapM (Member.render d .inNamespace) with
    | error err =>
      refine ⟨[], k, hk, fun e n text _ hm hr => ?_⟩
      obtain ⟨ts, t, us, -, -, hus', -⟩ := exists_texts_of_render hm hr
      cases hus.symm.trans hus'
    | ok us =>
      obtain ⟨front, back, hlayout⟩ := exists_render_layout name d scope ts us
      refine ⟨front ++ before, k, hk, fun e n text hn hm hr => ⟨back, ?_⟩⟩
      obtain ⟨ts', t, us', hts', ht, hus', rfl⟩ := exists_texts_of_render hm hr
      obtain rfl := Except.ok.inj (hts.symm.trans hts')
      obtain rfl := Except.ok.inj (hus.symm.trans hus')
      obtain ⟨own, ho, hown⟩ := hown e
      obtain rfl := Except.ok.inj (ho.symm.trans ht)
      rw [hn, hlayout, hown, hbefore]
      simp only [List.append_assoc]

/--
A raw value and a named type stand as they are in the declaration's own text, in every scope. In the
text of a namespace they stand unchanged in their place exactly when they survive; what comes before
that place does not depend on them.
-/
theorem Place.verbatim_iff (p : Place) (a : Alias) (d : Dialect) (scope : Scope) :
    (∃ front back, ∀ text, ∃ own, (p.fill text).render d scope = .ok own ∧
      own.toList = front ++ text.toList ++ back) ∧
    (∃ front back, ∀ text, (Alias.render { a with type := .named text } d scope).toList =
      front ++ text.toList ++ back) ∧
    ∀ name ms₁ ms₂, ∃ front, ∀ (e : String) (n : Namespace) (text : String), n.name = name →
      n.members = ms₁ ++ p.fill e :: ms₂ → n.render d scope = .ok text →
        (front ++ e.toList <+: text.toList ↔ Survives d (p.next d) e) := by
  refine ⟨p.toList_render d scope, a.toList_render d scope, fun name ms₁ ms₂ => ?_⟩
  obtain ⟨front, k, hk, h⟩ := p.exists_relaid d scope name ms₁ ms₂
  refine ⟨front, fun e n text hn hm hr => ?_⟩
  obtain ⟨back, ht⟩ := h e n text hn hm hr
  rw [ht, List.prefix_append_right_inj, prefix_relaid_iff, hk, untouched_iff_survives]

/-! Expressions over two lines. -/

namespace TwoLines

def limit : Variable := { name := "LIMIT" }

/-- A long string goes through a namespace in Lua. -/
def bracketed : String := "[[a\nb]]"

def inLua : Namespace :=
  { name := "n", vars := [{ limit with value := some (.raw bracketed) }] }

theorem verbatim_iff_bracketed :
    ∃ text front, inLua.render .lua .topLevel = .ok text ∧
      Survives .lua none bracketed ∧ front ++ bracketed.toList <+: text.toList := by
  obtain ⟨text, ht⟩ : ∃ text, inLua.render .lua .topLevel = .ok text := ⟨_, rfl⟩
  have hs : Survives .lua none bracketed := by
    unfold Survives
    decide +kernel
  obtain ⟨-, -, h⟩ := Place.verbatim_iff (.value limit) { name := "T" } .lua .topLevel
  obtain ⟨front, hf⟩ := h "n" [] []
  exact ⟨text, front, ht, hs, (hf bracketed inLua text rfl rfl ht).mpr hs⟩

/-- In TypeScript the margin goes into a template string, whose value it changes. -/
def template : String := "`a\nb`"

def inTypeScript : Namespace :=
  { name := "n", vars := [{ limit with value := some (.raw template) }] }

theorem template_moved :
    inTypeScript.render .typeScript .topLevel =
        .ok "declare namespace n \x7b\n  let LIMIT: any = `a\n  b`;\n\x7d" ∧
      ¬ template.toList <:+:
        "declare namespace n \x7b\n  let LIMIT: any = `a\n  b`;\n\x7d".toList := by
  decide +kernel

end TwoLines
end Ambient
