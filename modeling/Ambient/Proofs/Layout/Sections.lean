import Ambient.Proofs.Globals
import Ambient.Proofs.Layout.Annotations
import Ambient.Proofs.Layout.EmptyLines

/-!
Files in paragraphs. No declaration writes an empty line of its own, whatever its descriptions say, so the
empty lines of a file stand between its declarations, and between the members of a namespace.
-/
namespace Ambient
open Doc Text Writer

/-! Declarations. What descriptions say does not count: it is enough that the bare declaration is tidy. -/

theorem Alias.compact_render {a : Alias} (h : a.bare.Tidy) (d : Dialect) (scope : Scope) :
    Compact (a.render d scope).toList := by
  have hs : ∀ s ∈ a.steps d scope, s.Solid := by
    refine List.forall_mem_cons.mpr ⟨trivial, List.forall_mem_singleton.mpr ⟨?_, ?_⟩⟩
    · exact Alias.oneLine_line h.name h.type d scope
    · cases d <;> simp [Alias.line]
  exact Ambient.compact_render hs (a.endsInLine_steps d scope)

theorem Function.tidy_of_bare {f : Function} (h : f.bare.Tidy) : f.Tidy where
  name := h.name
  params p hp := h.params p.bare (List.mem_map_of_mem hp)
  returns r hr := h.returns r.bare (List.mem_map_of_mem hr)

theorem Function.compact_render {f : Function} (h : f.Tidy) {text : String}
    (ht : f.render .lua = .ok text) : Compact text.toList := by
  have hne : ∀ l ∈ f.lines, l ≠ "" := by
    simp only [Function.lines, List.forall_mem_append, List.forall_mem_map]
    simp [Parameter.annotation, Return.annotation]
  rw [Function.toList_render ht]
  refine .of_rows (by simp [Function.lines]) (List.forall_mem_map.mpr fun l hl => ?_)
  exact filled_of_oneLine (h.lines l hl) (hne l hl)

theorem Member.compact_render {m : Member} (h : m.bare.Tidy) {d : Dialect} {scope : Scope}
    {text : String} (ht : m.render d scope = .ok text) : Compact text.toList := by
  cases m with
  | enum e =>
    obtain rfl := Except.ok.inj ht
    have hs : ∀ s ∈ e.steps d scope, s.Solid :=
      Enum.forall_mem_steps onLines_solid h trivial (fun _ _ _ _ => trivial) scope
    exact Ambient.compact_render hs (e.endsInLine_steps d scope)
  | cls c =>
    obtain rfl := Except.ok.inj ht
    have hs : ∀ s ∈ c.steps d scope, s.Solid :=
      Class.forall_mem_steps onLines_solid h trivial (fun _ _ _ _ => trivial) scope
    exact Ambient.compact_render hs (c.endsInLine_steps d scope)
  | var v =>
    obtain rfl := Except.ok.inj ht
    have hs : ∀ s ∈ v.steps d scope, s.Solid :=
      Variable.forall_mem_steps onLines_solid h trivial scope
    exact Ambient.compact_render hs (v.endsInLine_steps d scope)
  | func f =>
    cases d with
    | typeScript => cases ht
    | lua => exact Function.compact_render (Function.tidy_of_bare h) ht

/-! Namespaces. -/

theorem terminated_eq {rows : List (List Char)} (h : rows ≠ []) :
    terminated rows = ['\n'].intercalate rows ++ ['\n'] := by
  obtain ⟨rs, last, rfl⟩ := (List.eq_nil_or_concat' rows).resolve_left h
  rw [← terminated_append_eq, terminated_append, terminated_cons, terminated_nil, List.append_assoc]

/-- Groups of rows are paragraphs, the last of them with the line that stands under all. -/
theorem exists_spaced_closed {last : List Char} (hl : Filled last) {groups : List (List (List Char))}
    (h : ∀ g ∈ groups, g ≠ [] ∧ ∀ r ∈ g, Filled r) :
    ∃ ps, Spaced (terminated (separatedLines groups) ++ last) ps ∧ ps.length = max 1 groups.length := by
  induction groups with
  | nil => exact ⟨[last], .one (.line hl), rfl⟩
  | cons g groups ih =>
    rw [List.forall_mem_cons] at h
    obtain ⟨⟨hne, hg⟩, hgs⟩ := h
    cases groups with
    | nil =>
      have hs : separatedLines [g] = g := List.intercalate_singleton
      rw [hs, terminated_append_eq]
      refine ⟨_, .one ?_, rfl⟩
      apply Compact.of_rows (by simp)
      exact List.forall_mem_append.mpr ⟨hg, List.forall_mem_singleton.mpr hl⟩
    | cons g' groups =>
      obtain ⟨ps, hs, hlen⟩ := ih hgs
      refine ⟨['\n'].intercalate g :: ps, ?_, ?_⟩
      · have hp := Spaced.cons (.of_rows hne hg) hs
        rw [separatedLines_cons_cons, terminated_append, terminated_eq hne]
        simpa using hp
      · simp only [List.length_cons] at hlen ⊢
        omega

theorem exists_spaced_frame {d : Dialect} {ss : List Step} {first last : String}
    {groups : List (List (List Char))}
    (hr : rowsFrom d.indent 0 ss = first.toList :: separatedLines groups ++ [last.toList])
    (hf : Filled first.toList) (hl : Filled last.toList)
    (h : ∀ g ∈ groups, g ≠ [] ∧ ∀ r ∈ g, Filled r) :
    ∃ ps, Spaced (Writer.render d ss).toList ps ∧ ps.length = max 1 groups.length := by
  obtain ⟨ps, hs, hlen⟩ := exists_spaced_closed hl h
  obtain ⟨qs, hq, hlen'⟩ := hs.exists_cons_line hf
  refine ⟨qs, ?_, hlen'.trans hlen⟩
  rw [toList_render hr, terminated_cons, List.append_assoc, List.cons_append]
  exact hq

/-- Lines that are filled stay so when they move in. -/
theorem forall_filled_reindent {texts : List String} (h : ∀ t ∈ texts, Compact t.toList) (n : Nat) :
    ∀ g ∈ texts.map fun t => (lineList t.toList).map (reindent n),
      g ≠ [] ∧ ∀ r ∈ g, Filled r := by
  refine List.forall_mem_map.mpr fun t ht => ?_
  obtain ⟨hne, hfilled⟩ := (h t ht).lineList
  exact ⟨by simpa using hne, List.forall_mem_map.mpr fun l hl => (hfilled l hl).reindent n⟩

/-- A namespace keeps the lines of its members together, so it is a paragraph for each, and never none. -/
theorem Namespace.exists_spaced_layout {name : String} (hn : OneLine name) (d : Dialect) (scope : Scope)
    {texts : List String} (h : ∀ t ∈ texts, Compact t.toList) :
    ∃ ps, Spaced (Writer.render d (Namespace.layout name d scope texts)).toList ps ∧
      ps.length = max 1 texts.length := by
  cases d with
  | lua =>
    have hlines := fun t ht => (h t ht).lineList
    have hf : OneLine ("--#region " ++ name) := oneLine_append.mpr ⟨by decide, hn⟩
    have hl : OneLine "--#endregion" := by decide
    have hr := rowsFrom_frame Dialect.lua.indent ("--#region " ++ name) "--#endregion" texts
    obtain ⟨ps, hs, hlen⟩ := exists_spaced_frame hr (filled_of_oneLine hf (by simp))
      (filled_of_oneLine hl (by decide)) (List.forall_mem_map.mpr hlines)
    rw [List.length_map] at hlen
    exact ⟨ps, hs, hlen⟩
  | typeScript =>
    have hf : OneLine (scope.declare ++ "namespace " ++ name ++ " \x7b") := by
      simp only [oneLine_append]
      exact ⟨⟨⟨oneLine_declare scope, by decide⟩, hn⟩, by decide⟩
    cases texts with
    | nil =>
      have hs : ∀ s ∈ Namespace.layout name .typeScript scope [], s.Solid :=
        List.forall_mem_singleton.mpr ⟨oneLine_append.mpr ⟨hf, by decide⟩, by simp⟩
      exact ⟨_, .one (compact_render hs ⟨[], _, rfl, by simp⟩), rfl⟩
    | cons t texts =>
      have hl : OneLine "\x7d" := by decide
      have hr := rowsFrom_braces Dialect.typeScript.indent
        (scope.declare ++ "namespace " ++ name ++ " \x7b") "\x7d" (t :: texts)
      obtain ⟨ps, hs, hlen⟩ := exists_spaced_frame hr (filled_of_oneLine hf (by simp))
        (filled_of_oneLine hl (by decide)) (forall_filled_reindent h _)
      rw [List.length_map] at hlen
      exact ⟨ps, hs, hlen⟩

theorem forall_compact_of_render {ms : List Member} (h : ∀ m ∈ ms, m.bare.Tidy) {d : Dialect}
    {scope : Scope} {texts : List String}
    (ht : List.Forall₂ (fun m t => m.render d scope = .ok t) ms texts) :
    ∀ t ∈ texts, Compact t.toList := by
  induction ht with
  | nil => exact List.forall_mem_nil _
  | cons hm _ ih =>
    rw [List.forall_mem_cons] at h
    exact List.forall_mem_cons.mpr ⟨Member.compact_render h.1 hm, ih h.2⟩

theorem Namespace.exists_spaced {n : Namespace} (h : n.bare.Tidy) {d : Dialect} {scope : Scope}
    {text : String} (ht : n.render d scope = .ok text) :
    ∃ ps, Spaced text.toList ps ∧ ps.length = max 1 n.members.length := by
  have hm : ∀ m ∈ n.members, m.bare.Tidy := by
    intro m hm
    apply h.member
    rw [n.members_bare]
    exact List.mem_map_of_mem hm
  rw [n.render_eq] at ht
  obtain ⟨texts, htexts, rfl⟩ := map_eq_ok_iff.mp ht
  have hr := mapM_eq_ok_iff.mp htexts
  rw [hr.length_eq]
  exact Namespace.exists_spaced_layout h.name d scope (forall_compact_of_render hm hr)

/-! Files. -/

/-- What a declaration's own text falls into: one paragraph, but a namespace takes one for each member. -/
def Declaration.Takes : Declaration → String → Prop
  | .alias _, text | .member _, text => paragraphs text.toList = [text.toList]
  | .space n, text => (paragraphs text.toList).length = max 1 n.members.length

theorem Declaration.spaced {x : Declaration} (h : x.bare.Tidy) {d : Dialect} {text : String}
    (ht : x.render d = .ok text) :
    Spaced text.toList (paragraphs text.toList) ∧ x.Takes text := by
  have hone : Compact text.toList →
      Spaced text.toList (paragraphs text.toList) ∧ paragraphs text.toList = [text.toList] := by
    intro hc
    have hs := Spaced.one hc
    rw [hs.paragraphs_eq]
    exact ⟨hs, rfl⟩
  rcases x with a | m | n
  · obtain rfl := Except.ok.inj ht
    exact hone (Alias.compact_render h d .topLevel)
  · exact hone (Member.compact_render h ht)
  · obtain ⟨ps, hs, hlen⟩ := Namespace.exists_spaced h ht
    rw [Declaration.Takes, hs.paragraphs_eq]
    exact ⟨hs, hlen⟩

/-- Sections with empty lines between them are the paragraphs of all sections. -/
theorem File.exists_spaced_joined {sections : List String} (hne : sections ≠ [])
    (h : ∀ s ∈ sections, Spaced s.toList (paragraphs s.toList)) :
    ∃ body, joined sections = body ++ "\n" ∧
      Spaced body.toList (sections.flatMap fun s => paragraphs s.toList) := by
  induction sections with
  | nil => exact absurd rfl hne
  | cons s sections ih =>
    rw [List.forall_mem_cons] at h
    cases sections with
    | nil =>
      refine ⟨s, by simp [joined], ?_⟩
      rw [List.flatMap_singleton]
      exact h.1
    | cons t sections =>
      obtain ⟨body, hj, hs⟩ := ih (List.cons_ne_nil t sections) h.2
      refine ⟨s ++ "\n\n" ++ body, ?_, ?_⟩
      · rw [joined_cons_cons, hj, ← String.append_assoc]
      · have ha := h.1.append hs
        rw [List.flatMap_cons]
        simpa using ha

theorem File.joined_eq_empty_iff {sections : List String} : joined sections = "" ↔ sections = [] := by
  cases sections <;> simp [joined]

theorem File.paragraphs_preamble (d : Dialect) :
    (∀ s ∈ preamble d, Spaced s.toList (paragraphs s.toList)) ∧
      (preamble d).flatMap (fun s => paragraphs s.toList) = (preamble d).map String.toList := by
  cases d with
  | lua =>
    have hl : OneLine "---@meta" := by decide
    have hs := Spaced.one (.line (filled_of_oneLine hl (by decide)))
    constructor
    · rw [preamble, List.forall_mem_singleton, hs.paragraphs_eq]
      exact hs
    · rw [preamble, List.flatMap_singleton, List.map_singleton, hs.paragraphs_eq]
  | typeScript => exact ⟨List.forall_mem_nil _, rfl⟩

theorem forall_spaced_of_render {xs : List Declaration} (h : ∀ x ∈ xs, x.bare.Tidy) {d : Dialect}
    {sections : List String} (hs : List.Forall₂ (fun x s => x.render d = .ok s) xs sections) :
    List.Forall₂ (fun x s => x.render d = .ok s ∧ x.Takes s) xs sections ∧
      ∀ s ∈ sections, Spaced s.toList (paragraphs s.toList) := by
  induction hs with
  | nil => exact ⟨.nil, List.forall_mem_nil _⟩
  | cons hx _ ih =>
    rw [List.forall_mem_cons] at h
    obtain ⟨hs, ht⟩ := Declaration.spaced h.1 hx
    obtain ⟨hts, hss⟩ := ih h.2
    exact ⟨.cons ⟨hx, ht⟩ hts, List.forall_mem_cons.mpr ⟨hs, hss⟩⟩

/--
A file whose names, types, parents and expressions have no line breaks falls into its declarations at the
empty lines of its text. Behind the mark of a Lua file each declaration but a namespace is one paragraph,
its own text, and a namespace is as many as it has members and at least one. No paragraph has an empty
line, and one line break ends the text. Only a file of nothing in TypeScript has no text.
-/
theorem File.paragraphs_render {f : File} (h : ∀ x ∈ f.declarations, x.bare.Tidy) {d : Dialect}
    {text : String} (ht : f.render d = .ok text) :
    (text = "" ↔ d = .typeScript ∧ f.declarations = []) ∧
    (d = .lua ∨ f.declarations ≠ [] → ∃ body sections, text = body ++ "\n" ∧
      body.toList.getLast? ≠ some '\n' ∧
      List.Forall₂ (fun x s => x.render d = .ok s ∧ x.Takes s) f.declarations sections ∧
      paragraphs body.toList =
        (preamble d).map String.toList ++ sections.flatMap (fun s => paragraphs s.toList) ∧
      ∀ p ∈ paragraphs body.toList, p ≠ [] ∧ ∀ l ∈ pieces p, ∃ c ∈ l, isBreak c = false) := by
  rw [f.render_eq] at ht
  obtain ⟨sections, hsections, rfl⟩ := map_eq_ok_iff.mp ht
  have hr := mapM_eq_ok_iff.mp hsections
  obtain ⟨htakes, hspaced⟩ := forall_spaced_of_render h hr
  obtain ⟨hpreamble, hmap⟩ := paragraphs_preamble d
  have hnil : preamble d ++ sections = [] ↔ d = .typeScript ∧ f.declarations = [] := by
    cases d with
    | lua => simp [preamble]
    | typeScript =>
      have hlen := hr.length_eq
      simp only [preamble, List.nil_append, true_and, ← List.length_eq_zero_iff]
      omega
  constructor
  · rw [joined_eq_empty_iff]
    exact hnil
  · intro hd
    have hne : preamble d ++ sections ≠ [] := by
      intro hc
      obtain ⟨rfl, hf⟩ := hnil.mp hc
      rcases hd with hd | hd
      · cases hd
      · exact hd hf
    have hall := List.forall_mem_append.mpr ⟨hpreamble, hspaced⟩
    obtain ⟨body, hj, hs⟩ := exists_spaced_joined hne hall
    refine ⟨body, sections, hj, hs.getLast?, htakes, ?_, ?_⟩
    · rw [hs.paragraphs_eq, List.flatMap_append, hmap]
    · rw [hs.paragraphs_eq]
      intro p hp
      have hc := hs.compact p hp
      exact ⟨hc.ne_nil, fun l hl => (hc.pieces l hl).filled⟩

/-! Descriptions with blank lines, with line breaks only, and with breaks at their ends. -/

namespace Journal

def state : Enum where
  name := "State"
  members := [{ name := "Open", desc := some "\r\n\r\n" }, { name := "Shut", value := some (.raw "-1") }]
  desc := "a\r\n\r\nb\r"

def entry : Class where
  name := "Entry"
  fields := [{ name := "text", type := some (.named "string"), desc := some "first\n\nlast\n\n" }]
  desc := "\n\n"

def days : Variable := { name := "days", value := some (.int 7), desc := "\r" }

def old : Namespace := { name := "old", classes := [entry], vars := [days] }

def unused : Namespace := { name := "unused" }

def file : File := { enums := [state], namespaces := [old, unused] }

theorem state_tidy : state.bare.Tidy where
  name := by decide
  members := by
    refine List.forall_mem_cons.mpr ⟨⟨by decide, nofun, nofun⟩, List.forall_mem_singleton.mpr ?_⟩
    exact ⟨by decide, by simp [EnumMember.bare, Value.OneLine]; decide, nofun⟩
  desc := by unfold Unreturned; decide

theorem entry_tidy : entry.bare.Tidy where
  name := by decide
  parent := by simp [entry, Class.bare]
  fields := List.forall_mem_singleton.mpr ⟨by decide, by simp [Field.bare, TypeRef.OneLine]; decide,
    by simp [Field.bare]⟩
  desc := by unfold Unreturned; decide

theorem days_tidy : days.bare.Tidy where
  name := by decide
  type := nofun
  value := by simp [days, Variable.bare, Value.OneLine]
  desc := by unfold Unreturned; decide

theorem old_tidy : old.bare.Tidy where
  name := by decide
  enums := by simp [old, Namespace.bare]
  classes := List.forall_mem_singleton.mpr entry_tidy
  vars := List.forall_mem_singleton.mpr days_tidy
  functions := by simp [old, Namespace.bare]

theorem unused_tidy : unused.bare.Tidy := ⟨by decide, nofun, nofun, nofun, nofun⟩

theorem file_tidy : ∀ x ∈ file.declarations, x.bare.Tidy :=
  List.forall_mem_cons.mpr ⟨state_tidy, List.forall_mem_cons.mpr ⟨old_tidy,
    List.forall_mem_singleton.mpr unused_tidy⟩⟩

theorem paragraphs_render_journal :
    (∀ x ∈ file.declarations, x.bare.Tidy) ∧ file.declarations ≠ [] ∧
      ∃ text body first last, file.render .typeScript = .ok text ∧ text = body ++ "\n" ∧
        old.render .typeScript .topLevel = .ok first ∧ (paragraphs first.toList).length = 2 ∧
        unused.render .typeScript .topLevel = .ok last ∧ (paragraphs last.toList).length = 1 ∧
        paragraphs body.toList = (state.render .typeScript .topLevel).toList ::
          (paragraphs first.toList ++ paragraphs last.toList) := by
  obtain ⟨text, ht⟩ : ∃ text, file.render .typeScript = .ok text := ⟨_, rfl⟩
  have hne : file.declarations ≠ [] := by decide
  obtain ⟨-, h⟩ := File.paragraphs_render file_tidy ht
  obtain ⟨body, sections, hb, -, hs, hp, -⟩ := h (Or.inr hne)
  obtain _ | ⟨⟨hstate, hone⟩, _ | ⟨⟨hold, htwo⟩, _ | ⟨⟨hunused, hlast⟩, _ | _⟩⟩⟩ := hs
  obtain rfl := Except.ok.inj hstate
  refine ⟨file_tidy, hne, text, body, _, _, ht, hb, hold, htwo, hunused, hlast, ?_⟩
  have hstate : paragraphs (state.render .typeScript .topLevel).toList =
      [(state.render .typeScript .topLevel).toList] := hone
  rw [hp]
  simp [File.preamble, hstate]

end Journal
end Ambient
