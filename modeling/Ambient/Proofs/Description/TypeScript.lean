import Ambient.Proofs.Description.Bare
import Ambient.Proofs.Description.Carried
import Ambient.Proofs.Description.Plain
import Ambient.Proofs.Outcomes

/-!
Descriptions in TypeScript stay in their blocks: a text without its blocks is the text of the same
declaration without its descriptions.
-/
namespace Ambient
open Doc Text Writer

theorem Alias.Plain.carries {a : Alias} (h : a.Plain) (scope : Scope) :
    Carries (a.render .typeScript scope) (a.bare.render .typeScript scope) :=
  (Bared.docIf a.desc .nil).carries_render .typeScript (h.line scope)

theorem Variable.Plain.carries {v : Variable} (h : v.Plain) (scope : Scope) :
    Carries (v.render .typeScript scope) (v.bare.render .typeScript scope) :=
  (Bared.docIf v.desc .nil).carries_render .typeScript (h.line scope)

/-! Bodies. -/

theorem docSteps_bared (desc : Option String) : Bared (docSteps .typeScript desc) [] := by
  cases desc with
  | none => exact .nil
  | some text => exact .doc text .nil

theorem blockless_brace : Blockless "\x7d" := by decide

theorem bared_body {header : String} (hh : Blockless header) {body bare : List Step}
    (hb : Bared body bare) :
    Bared (.line header :: .indent :: (body ++ [.dedent]))
      (.line header :: .indent :: (bare ++ [.dedent])) := by
  have hd : Bared (body ++ [.dedent]) (bare ++ [.dedent]) := hb.append (.layout (by simp) .nil)
  exact .line hh (.layout (by simp) hd)

/-- A body between its braces, with the descriptions of what it belongs to and of what is in it. -/
theorem carries_body {header : String} (hh : Blockless header) {body bare : List Step}
    (hb : Bared body bare) (desc : String) :
    Carries
      (render .typeScript
        (.docIf .typeScript desc :: ([.line header, .indent] ++ body ++ [.dedent, .line "\x7d"])))
      (render .typeScript
        (.docIf .typeScript "" :: ([.line header, .indent] ++ bare ++ [.dedent, .line "\x7d"]))) := by
  have hs := Bared.docIf desc (bared_body hh hb)
  simpa using hs.carries_render .typeScript blockless_brace

theorem Class.bared_fields {fs : List Field} (h : ∀ f ∈ fs, f.Plain) :
    Bared (fs.flatMap fun f => docSteps .typeScript f.desc ++ [.line f.declaration])
      ((fs.map Field.bare).flatMap fun f => docSteps .typeScript f.desc ++ [.line f.declaration]) := by
  induction fs with
  | nil => exact .nil
  | cons f fs ih =>
    rw [List.forall_mem_cons] at h
    rw [List.map_cons, List.flatMap_cons, List.flatMap_cons]
    have hf : Bared (docSteps .typeScript f.desc ++ [.line f.declaration]) [.line f.declaration] :=
      (docSteps_bared f.desc).append (.line h.1.declaration .nil)
    exact hf.append (ih h.2)

theorem Class.Plain.carries {c : Class} (h : c.Plain) (scope : Scope) :
    Carries (c.render .typeScript scope) (c.bare.render .typeScript scope) := by
  have hh := h.header scope
  have hb := Class.bared_fields h.fields
  obtain ⟨name, parent, fields, desc⟩ := c
  cases fields with
  | nil => exact (Bared.docIf desc .nil).carries_render .typeScript hh.closed
  | cons f fs => exact carries_body hh hb desc

theorem Enum.Count.bared_entries {ms : List EnumMember} (h : ∀ m ∈ ms, m.Plain) (c : Count) :
    Bared (c.entries .typeScript ms) (c.entries .typeScript (ms.map EnumMember.bare)) := by
  induction ms generalizing c with
  | nil => exact .nil
  | cons m ms ih =>
    rw [List.forall_mem_cons] at h
    have hm : Bared (c.entry .typeScript m) (c.entry .typeScript m.bare) :=
      (docSteps_bared m.desc).append (.line (h.1.line c) .nil)
    exact hm.append (ih h.2 (c.after m))

theorem Enum.Plain.carries {e : Enum} (h : e.Plain) (scope : Scope) :
    Carries (e.render .typeScript scope) (e.bare.render .typeScript scope) := by
  have hh := h.header scope
  have hb := Enum.Count.bared_entries h.members .start
  obtain ⟨name, constant, members, desc⟩ := e
  cases members with
  | nil => exact (Bared.docIf desc .nil).carries_render .typeScript hh.closed
  | cons m ms => exact carries_body hh hb desc

/-! Namespaces and files. -/

/-- Both texts are there, and the first carries the second. -/
def RendersCarry (r bare : Except Error String) : Prop :=
  ∃ s t, r = .ok s ∧ bare = .ok t ∧ Carries s t

theorem Namespace.bared_separated {texts bares : List String} (h : List.Forall₂ Carries texts bares) :
    Bared (Namespace.separated texts) (Namespace.separated bares) := by
  induction h with
  | nil => exact .nil
  | @cons s bare texts bares hs h ih =>
    cases h with
    | nil => exact .lines hs .nil
    | cons ht h => exact .lines hs (.layout (by simp) ih)

theorem Namespace.Plain.member_carries {n : Namespace} (h : n.Plain) (hf : n.functions = [])
    {m : Member} (hm : m ∈ n.members) :
    RendersCarry (m.render .typeScript .inNamespace) (m.bare.render .typeScript .inNamespace) := by
  simp only [Namespace.members, hf, List.map_nil, List.append_nil, List.mem_append,
    List.mem_map] at hm
  rcases hm with (⟨e, he, rfl⟩ | ⟨c, hc, rfl⟩) | ⟨v, hv, rfl⟩
  · exact ⟨_, _, rfl, rfl, (h.enums e he).carries .inNamespace⟩
  · exact ⟨_, _, rfl, rfl, (h.classes c hc).carries .inNamespace⟩
  · exact ⟨_, _, rfl, rfl, (h.vars v hv).carries .inNamespace⟩

theorem Namespace.Plain.carries {n : Namespace} (h : n.Plain) (hf : n.functions = [])
    (scope : Scope) :
    RendersCarry (n.render .typeScript scope) (n.bare.render .typeScript scope) := by
  obtain ⟨texts, bares, ht, hb, hc⟩ :=
    exists_mapM_related fun (m : Member) (hm : m ∈ n.members) => h.member_carries hf hm
  have hb' : n.bare.members.mapM (Member.render .typeScript .inNamespace) = .ok bares := by
    rw [Namespace.members_bare, List.mapM_map]
    exact hb
  have hh := h.header scope
  refine ⟨_, _, Namespace.render_of_mapM ht scope, Namespace.render_of_mapM hb' scope, ?_⟩
  cases hc with
  | nil => exact Bared.nil.carries_render .typeScript hh.closed
  | cons hs hc =>
    have hb := bared_body hh (Namespace.bared_separated (.cons hs hc))
    simpa [Namespace.layout, Namespace.bare] using hb.carries_render .typeScript blockless_brace

/-- No function is declared, at the top or in a namespace. -/
structure File.Functionless (f : File) : Prop where
  top : f.functions = []
  namespaces : ∀ n ∈ f.namespaces, n.functions = []

theorem File.Plain.declaration_carries {f : File} (h : f.Plain) (hf : f.Functionless)
    {x : Declaration} (hx : x ∈ f.declarations) :
    RendersCarry (x.render .typeScript) (x.bare.render .typeScript) := by
  simp only [File.declarations, hf.top, List.map_nil, List.append_nil, List.mem_append,
    List.mem_map, Function.comp_apply] at hx
  rcases hx with (((⟨a, ha, rfl⟩ | ⟨e, he, rfl⟩) | ⟨c, hc, rfl⟩) | ⟨v, hv, rfl⟩) | ⟨n, hn, rfl⟩
  · exact ⟨_, _, rfl, rfl, (h.types a ha).carries .topLevel⟩
  · exact ⟨_, _, rfl, rfl, (h.enums e he).carries .topLevel⟩
  · exact ⟨_, _, rfl, rfl, (h.classes c hc).carries .topLevel⟩
  · exact ⟨_, _, rfl, rfl, (h.vars v hv).carries .topLevel⟩
  · exact (h.namespaces n hn).carries (hf.namespaces n hn) .topLevel

/-- Sections joined by blank lines are rows, with a break after the last. -/
theorem File.documented_joined {sections bares : List String}
    (h : List.Forall₂ Carries sections bares) :
    ∃ rs qs, Documented rs qs ∧ (File.joined sections).toList = terminated rs ∧
      (File.joined bares).toList = terminated qs := by
  induction h with
  | nil => exact ⟨[], [], .nil, rfl, rfl⟩
  | @cons s bare sections bares hs h ih =>
    obtain ⟨rs, qs, last, hd, hl, hr, hq⟩ := hs
    have hd : Documented (rs ++ [last]) (qs ++ [last]) := hd.append (.code hl .nil)
    cases h with
    | nil =>
      refine ⟨_, _, hd, ?_, ?_⟩
      · simp [File.joined, hr]
      · simp [File.joined, hq]
    | cons ht h =>
      obtain ⟨rs', qs', hd', hr', hq'⟩ := ih
      refine ⟨_, _, hd.append (.code avoids_opening_nil hd'), ?_, ?_⟩
      · rw [File.joined_cons_cons, String.toList_append, String.toList_append, hr, hr']
        simp
      · rw [File.joined_cons_cons, String.toList_append, String.toList_append, hq, hq']
        simp

theorem File.Plain.carries {f : File} (h : f.Plain) (hf : f.Functionless) :
    RendersCarry (f.render .typeScript) (f.bare.render .typeScript) := by
  obtain ⟨sections, bares, hs, hb, hc⟩ :=
    exists_mapM_related fun x hx => h.declaration_carries hf hx
  have hb' : f.bare.declarations.mapM (Declaration.render .typeScript) = .ok bares := by
    rw [File.declarations_bare, List.mapM_map]
    exact hb
  refine ⟨File.joined sections, File.joined bares, File.render_of_mapM hs,
    File.render_of_mapM hb', ?_⟩
  obtain ⟨rs, qs, hd, hr, hq⟩ := File.documented_joined hc
  exact ⟨rs, qs, [], hd, avoids_opening_nil, by rw [hr, List.append_nil],
    by rw [hq, List.append_nil]⟩

/-! Whole texts. -/

/-- Without its doc blocks a TypeScript text is the text of the declaration without descriptions. -/
theorem withoutBlocks_render :
    (∀ a : Alias, a.Plain → ∀ scope,
      withoutBlocks (a.render .typeScript scope) = a.bare.render .typeScript scope) ∧
    (∀ v : Variable, v.Plain → ∀ scope,
      withoutBlocks (v.render .typeScript scope) = v.bare.render .typeScript scope) ∧
    (∀ c : Class, c.Plain → ∀ scope,
      withoutBlocks (c.render .typeScript scope) = c.bare.render .typeScript scope) ∧
    (∀ e : Enum, e.Plain → ∀ scope,
      withoutBlocks (e.render .typeScript scope) = e.bare.render .typeScript scope) ∧
    ∀ f : File, f.Plain → f.Functionless → ∃ text,
      f.render .typeScript = .ok text ∧ f.bare.render .typeScript = .ok (withoutBlocks text) := by
  refine ⟨fun a h scope => (h.carries scope).withoutBlocks_eq,
    fun v h scope => (h.carries scope).withoutBlocks_eq,
    fun c h scope => (h.carries scope).withoutBlocks_eq,
    fun e h scope => (h.carries scope).withoutBlocks_eq, fun f h hf => ?_⟩
  obtain ⟨text, bare, ht, hb, hc⟩ := h.carries hf
  exact ⟨text, ht, by rw [hb, hc.withoutBlocks_eq]⟩

/-! Descriptions that try to end their blocks and to begin others. -/

namespace Hostile

def typ : Alias := { name := "T", desc := "*/ type U = any; /**" }

def var : Variable := { name := "V", value := some (.int 1), desc := "*/\nlet W" }

def cls : Class :=
  { name := "C", fields := [{ name := "x", desc := some "" }], desc := "a*\r*/\n/ b" }

def enum : Enum :=
  { name := "E", members := [{ name := "a b", desc := some "/\n*/" }], desc := "**/" }

def file : File where
  types := [typ]
  enums := [enum]
  classes := [cls]
  vars := [var]
  namespaces := [{ name := "N", classes := [cls], enums := [enum], vars := [var] }]

theorem typ_plain : typ.Plain := ⟨by decide, by decide⟩

theorem var_plain : var.Plain := ⟨by decide, by decide, by decide⟩

theorem cls_plain : cls.Plain :=
  ⟨by decide, by simp [cls], List.forall_mem_singleton.mpr ⟨by decide, by decide⟩⟩

theorem enum_plain : enum.Plain :=
  ⟨by decide, List.forall_mem_singleton.mpr ⟨by decide, by simp⟩⟩

theorem file_plain : file.Plain where
  types := List.forall_mem_singleton.mpr typ_plain
  enums := List.forall_mem_singleton.mpr enum_plain
  classes := List.forall_mem_singleton.mpr cls_plain
  vars := List.forall_mem_singleton.mpr var_plain
  namespaces := List.forall_mem_singleton.mpr
    ⟨by decide, List.forall_mem_singleton.mpr cls_plain, List.forall_mem_singleton.mpr enum_plain,
      List.forall_mem_singleton.mpr var_plain⟩

theorem file_functionless : file.Functionless := ⟨rfl, List.forall_mem_singleton.mpr rfl⟩

theorem withoutBlocks_render_hostile :
    withoutBlocks (typ.render .typeScript .topLevel) = typ.bare.render .typeScript .topLevel ∧
    withoutBlocks (var.render .typeScript .inNamespace) =
      var.bare.render .typeScript .inNamespace ∧
    withoutBlocks (cls.render .typeScript .topLevel) = cls.bare.render .typeScript .topLevel ∧
    withoutBlocks (enum.render .typeScript .inNamespace) =
      enum.bare.render .typeScript .inNamespace ∧
    ∃ text, file.render .typeScript = .ok text ∧
      file.bare.render .typeScript = .ok (withoutBlocks text) :=
  ⟨withoutBlocks_render.1 typ typ_plain .topLevel,
    withoutBlocks_render.2.1 var var_plain .inNamespace,
    withoutBlocks_render.2.2.1 cls cls_plain .topLevel,
    withoutBlocks_render.2.2.2.1 enum enum_plain .inNamespace,
    withoutBlocks_render.2.2.2.2 file file_plain file_functionless⟩

end Hostile
end Ambient
