import Ambient.Proofs.Description.Bare
import Ambient.Proofs.Description.CodeLines

/-!
Descriptions in Lua: a description before a declaration is cut into lines at line feeds only, so
what stands behind a carriage return in it is code unless it looks like a comment itself.
-/
namespace Ambient

namespace Doc
open Text Writer

/-! Lists of lines of which one has in every place as many as the other. -/

theorem append_eq_append_iff_of_length {α : Type} {xs xs' ys ys' : List α}
    (h : ys.length ≤ xs.length) (h' : ys'.length ≤ xs'.length) :
    xs ++ xs' = ys ++ ys' ↔ xs = ys ∧ xs' = ys' := by
  constructor
  · intro he
    have hl := congrArg List.length he
    rw [List.length_append, List.length_append] at hl
    exact List.append_inj he (by omega)
  · rintro ⟨rfl, rfl⟩
    rfl

theorem flatMap_eq_flatMap_iff {α β : Type} {f g : α → List β} {xs : List α}
    (h : ∀ x ∈ xs, (g x).length ≤ (f x).length) :
    (xs.flatMap g).length ≤ (xs.flatMap f).length ∧
      (xs.flatMap f = xs.flatMap g ↔ ∀ x ∈ xs, f x = g x) := by
  induction xs with
  | nil => simp
  | cons x xs ih =>
    rw [List.forall_mem_cons] at h
    obtain ⟨hl, hi⟩ := ih h.2
    rw [List.flatMap_cons, List.flatMap_cons, List.length_append, List.length_append,
      append_eq_append_iff_of_length h.1 hl, hi, List.forall_mem_cons]
    exact ⟨by omega, Iff.rfl⟩

/-! Steps. -/

theorem codeLines_doc (n : Nat) (text : String) :
    codeLines ((Step.doc .lua text).written (spaces n)) = [] ↔ Commented text := by
  have ht := toList_written n (.doc .lua text)
  have hn : codePieces [] = [] := by decide
  rw [← List.append_nil (terminated _)] at ht
  rw [codeLines, ht, codePieces_terminated, hn, List.append_nil]
  exact codePieces_docRows n text

/-- Steps beside the same steps without the listed descriptions. -/
inductive Annotated : List String → List Step → List Step → Prop
  | nil : Annotated [] [] []
  | doc (text : String) {texts : List String} {ss ts : List Step} (h : Annotated texts ss ts) :
      Annotated (text :: texts) (.doc .lua text :: ss) ts
  | docIf (text : String) {texts : List String} {ss ts : List Step} (h : Annotated texts ss ts) :
      Annotated (text :: texts) (.docIf .lua text :: ss) (.docIf .lua "" :: ts)
  | step (s : Step) {texts : List String} {ss ts : List Step} (h : Annotated texts ss ts) :
      Annotated texts (s :: ss) (s :: ts)

theorem codePieces_docIf (n : Nat) (text : String) :
    ((Step.docIf .lua text).rows n).flatMap codePieces = [] ↔ Commented text := by
  rw [Step.rows]
  split
  next h =>
    rw [String.isEmpty_iff] at h
    simp [h, Commented, lines_empty]
  next => exact codePieces_docRows n text

namespace Annotated

variable {texts texts' : List String} {ss ts ss' ts' : List Step}

theorem append (h : Annotated texts ss ts) (h' : Annotated texts' ss' ts') :
    Annotated (texts ++ texts') (ss ++ ss') (ts ++ ts') := by
  induction h with
  | nil => exact h'
  | doc text h ih => exact .doc text ih
  | docIf text h ih => exact .docIf text ih
  | step s h ih => exact .step s ih

theorem of_steps (ss : List Step) : Annotated [] ss ss := by
  induction ss with
  | nil => exact .nil
  | cons s ss ih => exact .step s ih

theorem codePieces_iff (h : Annotated texts ss ts) (width level : Nat) :
    ((rowsFrom width level ts).flatMap codePieces).length ≤
        ((rowsFrom width level ss).flatMap codePieces).length ∧
      ((rowsFrom width level ss).flatMap codePieces = (rowsFrom width level ts).flatMap codePieces ↔
        ∀ text ∈ texts, Commented text) := by
  -- Whether the code lines before the rest are gone is settled by the lengths.
  have hdoc : ∀ {xs ys zs : List (List Char)} {p q : Prop}, (xs = [] ↔ p) →
      ys.length ≤ zs.length ∧ (zs = ys ↔ q) →
      ys.length ≤ (xs ++ zs).length ∧ (xs ++ zs = ys ↔ p ∧ q) := by
    intro xs ys zs p q hp ⟨hl, hq⟩
    have hn : ([] : List (List Char)).length ≤ xs.length := Nat.zero_le _
    have ha := append_eq_append_iff_of_length hn hl
    rw [List.nil_append] at ha
    rw [ha, hp, hq, List.length_append]
    exact ⟨by omega, Iff.rfl⟩
  induction h generalizing level with
  | nil => simp [rowsFrom]
  | doc text h ih =>
    rw [List.forall_mem_cons, rowsFrom, List.flatMap_append]
    exact hdoc (codePieces_docRows _ text) (ih level)
  | @docIf text texts ss ts h ih =>
    have he : rowsFrom width level (.docIf .lua "" :: ts) = rowsFrom width level ts := by
      simp [rowsFrom, Step.rows, Step.leveled]
    rw [List.forall_mem_cons, he, rowsFrom, List.flatMap_append]
    exact hdoc (codePieces_docIf _ text) (ih level)
  | step s h ih =>
    obtain ⟨hl, hi⟩ := ih (s.leveled level)
    rw [rowsFrom, rowsFrom, List.flatMap_append, List.flatMap_append, List.append_cancel_left_eq,
      List.length_append, List.length_append, hi]
    exact ⟨by omega, Iff.rfl⟩

theorem codeLines_iff (h : Annotated texts ss ts) (d : Dialect) :
    codeLines (render d ss) = codeLines (render d ts) ↔ ∀ text ∈ texts, Commented text := by
  rw [codeLines_render, codeLines_render]
  exact (h.codePieces_iff d.indent 0).2

end Annotated

end Doc

open Doc Text Writer

theorem Alias.codeLines_iff (a : Alias) (scope : Scope) :
    codeLines (a.render .lua scope) = codeLines (a.bare.render .lua scope) ↔ Commented a.desc := by
  have h := (Annotated.docIf a.desc (.of_steps [.line (a.line .lua scope)])).codeLines_iff .lua
  rw [List.forall_mem_singleton] at h
  exact h

theorem Variable.codeLines_iff (v : Variable) (scope : Scope) :
    codeLines (v.render .lua scope) = codeLines (v.bare.render .lua scope) ↔ Commented v.desc := by
  have h := (Annotated.docIf v.desc (.of_steps (v.lines .lua scope))).codeLines_iff .lua
  rw [List.forall_mem_singleton] at h
  exact h

theorem Enum.Count.annotated_entries (c : Count) (ms : List EnumMember) :
    Annotated (ms.filterMap EnumMember.desc) (c.entries .lua ms)
      (c.entries .lua (ms.map EnumMember.bare)) := by
  induction ms generalizing c with
  | nil => exact .nil
  | cons m ms ih =>
    have hm : Annotated m.desc.toList (c.entry .lua m) (c.entry .lua m.bare) := by
      obtain ⟨name, value, desc⟩ := m
      cases desc with
      | none => exact .of_steps _
      | some text => exact .doc text (.of_steps _)
    have h := hm.append (ih (c.after m))
    obtain ⟨name, value, desc⟩ := m
    cases desc <;> exact h

theorem Enum.codeLines_iff (e : Enum) (scope : Scope) :
    codeLines (e.render .lua scope) = codeLines (e.bare.render .lua scope) ↔
      Commented e.desc ∧ ∀ m ∈ e.members, ∀ text ∈ m.desc, Commented text := by
  have hb := Enum.Count.annotated_entries .start e.members
  have hs : Annotated (e.desc :: e.members.filterMap EnumMember.desc) (e.steps .lua scope)
      (e.bare.steps .lua scope) := by
    obtain ⟨name, constant, members, desc⟩ := e
    cases members with
    | nil => exact .docIf desc (.of_steps _)
    | cons m ms =>
      have h := ((Annotated.of_steps [.line ("---@enum " ++ name), .line (name ++ " = \x7b"),
        .indent]).append hb).append (.of_steps [.dedent, .line "\x7d"])
      rw [List.nil_append, List.append_nil] at h
      exact .docIf desc h
  have h := hs.codeLines_iff .lua
  rw [List.forall_mem_cons] at h
  refine h.trans (and_congr_right fun _ => ?_)
  simp only [List.mem_filterMap, Option.mem_def]
  exact ⟨fun ha m hm text ht => ha text ⟨m, hm, ht⟩, fun ha text ⟨m, hm, ht⟩ => ha m hm text ht⟩

/-! Classes: descriptions of fields stand behind their annotations. -/

/-- The description of a field, if it has one, stands on a line that is no code. -/
def Field.Contained (f : Field) : Prop :=
  f.desc.isSome → isCode (lastLine f.annotation.toList) = false

theorem Field.codeLines_iff (f : Field) :
    (codeLines f.bare.annotation).length ≤ (codeLines f.annotation).length ∧
      (codeLines f.annotation = codeLines f.bare.annotation ↔ f.Contained) := by
  obtain ⟨name, type, optional, desc⟩ := f
  cases desc with
  | none => simp [Field.bare, Field.Contained]
  | some text =>
    have h := codePieces_trailing (s := (Field.annotation ⟨name, type, optional, none⟩).toList)
      (Or.inl rfl) (oneLine_flatten text) (by simp)
    have ha : (Field.annotation ⟨name, type, optional, some text⟩).toList =
        (Field.annotation ⟨name, type, optional, none⟩).toList ++ ' ' :: (flatten text).toList := by
      simp [Field.annotation]
    rw [← ha, List.append_nil] at h
    simpa [codeLines, Field.Contained, Field.bare] using h

theorem oneLine_optionalMark (optional : Bool) : OneLine (optionalMark optional) := by
  cases optional <;> decide

/-- Only a break in its name or in its type lets the description of a field show. -/
theorem Field.contained {f : Field} (hn : OneLine f.name)
    (ht : OneLine (TypeRef.spellingOrAny f.type .lua)) : f.Contained := by
  intro _
  have hm := oneLine_optionalMark f.optional
  refine isCode_lastLine ?_ (by simp [Field.annotation])
  simp only [Field.annotation, oneLine_append]
  refine ⟨⟨⟨⟨⟨by decide, hn⟩, hm⟩, by decide⟩, ht⟩, ?_⟩
  cases f.desc with
  | none => decide
  | some text => exact oneLine_append.mpr ⟨by decide, oneLine_flatten text⟩

theorem codeLines_lines (width : Nat) (ls : List String) :
    (rowsFrom width 0 (ls.map .line)).flatMap codePieces = ls.flatMap codeLines := by
  rw [rowsFrom_lines, List.flatMap_map]
  rfl

/-- The annotations of a class and the line under them. -/
def Class.lines (c : Class) : List String :=
  ("---@class " ++ c.name ++ parentClause " : " c.parent) :: c.fields.map Field.annotation ++
    [c.name ++ " = \x7b\x7d"]

theorem Class.luaSteps_eq (c : Class) : c.luaSteps = c.lines.map .line := by
  simp [luaSteps, lines]

theorem Class.codeLines_lua (c : Class) (scope : Scope) :
    codeLines (c.render .lua scope) = ((Step.docIf .lua c.desc).rows 0).flatMap codePieces ++
      (codeLines ("---@class " ++ c.name ++ parentClause " : " c.parent) ++
        c.fields.flatMap (fun f => codeLines f.annotation) ++ codeLines (c.name ++ " = \x7b\x7d")) := by
  rw [Class.render, codeLines_render, Class.steps, rowsFrom, List.flatMap_append, Nat.zero_mul,
    Class.luaSteps_eq]
  change _ ++ (rowsFrom _ 0 _).flatMap codePieces = _
  rw [codeLines_lines]
  simp [Class.lines, List.flatMap_map]

theorem Class.codeLines_iff (c : Class) (scope : Scope) :
    codeLines (c.render .lua scope) = codeLines (c.bare.render .lua scope) ↔
      Commented c.desc ∧ ∀ f ∈ c.fields, f.Contained := by
  have hm : ∀ f ∈ c.fields,
      (codeLines f.bare.annotation).length ≤ (codeLines f.annotation).length :=
    fun f _ => f.codeLines_iff.1
  obtain ⟨hl, hf⟩ := flatMap_eq_flatMap_iff hm
  have hd : ((Step.docIf .lua "").rows 0).flatMap codePieces = [] := by simp [Step.rows]
  rw [Class.codeLines_lua, Class.codeLines_lua, Class.bare, hd, List.flatMap_map,
    append_eq_append_iff_of_length (Nat.zero_le _), codePieces_docIf, List.append_cancel_right_eq,
    List.append_cancel_left_eq, hf]
  · exact and_congr_right fun _ => forall₂_congr fun f _ => f.codeLines_iff.2
  · simp only [List.length_append]
    omega

/-! Functions: descriptions of parameters and of results stand behind their annotations. -/

/-- The description of a parameter, if it says anything, stands on a line that is no code. -/
def Parameter.Contained (p : Parameter) : Prop :=
  ∀ text ∈ p.desc, flatten text ≠ "" → isCode (lastLine p.annotation.toList) = false

/-- The description of a result, if it has one, stands on a line that is no code. -/
def Return.Contained (r : Return) : Prop :=
  r.desc.isSome → isCode (lastLine r.annotation.toList) = false

theorem Parameter.contained {p : Parameter} (hn : OneLine p.name)
    (ht : OneLine (TypeRef.spellingOrAny p.type .lua)) : p.Contained := by
  intro text hd _
  have hm := oneLine_optionalMark p.optional
  refine isCode_lastLine ?_ (by simp [Parameter.annotation])
  simp only [Parameter.annotation, oneLine_append]
  refine ⟨⟨⟨⟨⟨⟨by decide, hn⟩, hm⟩, by decide⟩, ht⟩, by decide⟩, ?_⟩
  rw [Option.mem_def.mp hd]
  exact oneLine_flatten text

theorem Return.contained {r : Return} (hn : ∀ n ∈ r.name, OneLine n)
    (ht : OneLine (TypeRef.spellingOrAny r.type .lua)) : r.Contained := by
  intro _
  refine isCode_lastLine ?_ (by simp [Return.annotation])
  simp only [Return.annotation, oneLine_append]
  refine ⟨⟨⟨by decide, ht⟩, ?_⟩, ?_⟩
  · cases hr : r.name with
    | none => decide
    | some n => exact oneLine_append.mpr ⟨by decide, hn n hr⟩
  · cases r.desc with
    | none => decide
    | some text => exact oneLine_append.mpr ⟨by decide, oneLine_flatten text⟩

theorem Parameter.codeLines_iff (p : Parameter) :
    (codeLines p.bare.annotation).length ≤ (codeLines p.annotation).length ∧
      (codeLines p.annotation = codeLines p.bare.annotation ↔ p.Contained) := by
  obtain ⟨name, type, default, optional, desc⟩ := p
  cases desc with
  | none => simp [Parameter.bare, Parameter.Contained]
  | some text =>
    by_cases he : flatten text = ""
    · simp [Parameter.bare, Parameter.Contained, Parameter.annotation, he]
    · have h := codePieces_trailing
        (s := ("---@param " ++ name ++ optionalMark optional ++ " " ++
          TypeRef.spellingOrAny type .lua).toList) (Or.inr rfl) (oneLine_flatten text)
        (by simpa using he)
      simpa [codeLines, Parameter.Contained, Parameter.bare, Parameter.annotation, he] using h

theorem Return.codeLines_iff (r : Return) :
    (codeLines r.bare.annotation).length ≤ (codeLines r.annotation).length ∧
      (codeLines r.annotation = codeLines r.bare.annotation ↔ r.Contained) := by
  obtain ⟨name, type, desc⟩ := r
  cases desc with
  | none => simp [Return.bare, Return.Contained]
  | some text =>
    have ht : ∀ c ∈ '#' :: ' ' :: (flatten text).toList, isBreak c = false := by
      rw [List.forall_mem_cons, List.forall_mem_cons]
      exact ⟨by decide, by decide, oneLine_flatten text⟩
    have h := codePieces_trailing (s := (Return.annotation ⟨name, type, none⟩).toList)
      (Or.inl rfl) ht (by simp)
    have ha : (Return.annotation ⟨name, type, some text⟩).toList =
        (Return.annotation ⟨name, type, none⟩).toList ++
          ' ' :: '#' :: ' ' :: (flatten text).toList := by
      simp [Return.annotation]
    rw [← ha, List.append_nil] at h
    simpa [codeLines, Return.Contained, Return.bare] using h

theorem Function.toList_endLines (ls : List String) :
    (endLines ls).toList = terminated (ls.map String.toList) := by
  simp [endLines, terminated, String.toList_join, List.flatMap_map]

/-- The annotations of a function and the line under them. -/
def Function.lines (f : Function) : List String :=
  f.params.map Parameter.annotation ++ f.returns.map Return.annotation ++
    ["function " ++ f.name ++ "(" ++ f.luaParams ++ ") end"]

theorem Function.toList_render {f : Function} {text : String} (h : f.render .lua = .ok text) :
    text.toList = ['\n'].intercalate (f.lines.map String.toList) := by
  obtain rfl := Except.ok.inj h
  rw [lines, List.map_append, List.map_singleton, ← terminated_append_eq]
  simp only [luaParamAnnotations, luaReturnAnnotations, String.toList_append, toList_endLines,
    List.map_append, terminated_append, List.append_assoc]

theorem Function.codeLines_lua (f : Function) :
    ∃ text, f.render .lua = .ok text ∧
      codeLines text = f.params.flatMap (fun p => codeLines p.annotation) ++
        f.returns.flatMap (fun r => codeLines r.annotation) ++
        codeLines ("function " ++ f.name ++ "(" ++ f.luaParams ++ ") end") := by
  refine ⟨_, rfl, ?_⟩
  rw [codeLines, toList_render rfl, lines, List.map_append, List.map_singleton,
    ← terminated_append_eq, codePieces_terminated, List.map_append, List.flatMap_append,
    List.flatMap_map, List.flatMap_map, List.flatMap_map, List.flatMap_map]
  rfl

theorem Function.codeLines_iff (f : Function) :
    ∃ text bare, f.render .lua = .ok text ∧ f.bare.render .lua = .ok bare ∧
      (codeLines text = codeLines bare ↔
        (∀ p ∈ f.params, p.Contained) ∧ ∀ r ∈ f.returns, r.Contained) := by
  obtain ⟨text, ht, hc⟩ := f.codeLines_lua
  obtain ⟨bare, hb, hd⟩ := f.bare.codeLines_lua
  refine ⟨text, bare, ht, hb, ?_⟩
  have hm : ∀ p ∈ f.params,
      (codeLines p.bare.annotation).length ≤ (codeLines p.annotation).length :=
    fun p _ => p.codeLines_iff.1
  have hn : ∀ r ∈ f.returns,
      (codeLines r.bare.annotation).length ≤ (codeLines r.annotation).length :=
    fun r _ => r.codeLines_iff.1
  obtain ⟨hp, hpi⟩ := flatMap_eq_flatMap_iff hm
  obtain ⟨hr, hri⟩ := flatMap_eq_flatMap_iff hn
  have hl : f.bare.luaParams = f.luaParams := by
    rw [Function.luaParams, Function.bare, List.map_map]
    rfl
  rw [hc, hd, hl, Function.bare, List.flatMap_map, List.flatMap_map, List.append_cancel_right_eq,
    append_eq_append_iff_of_length hp hr, hpi, hri]
  exact and_congr (forall₂_congr fun p _ => p.codeLines_iff.2)
    (forall₂_congr fun r _ => r.codeLines_iff.2)

/-! Whole texts. -/

/--
When the code lines of a Lua text are those of the bare declaration: no description before a
declaration may have code behind a carriage return, and none behind an annotation may end a line of
code. The first is also when the lines written for a description have no code among them.
-/
theorem codeLines_render_lua_iff (text : String) (n : Nat) (a : Alias) (v : Variable) (e : Enum)
    (c : Class) (f : Function) (scope : Scope) :
    (codeLines ((Step.doc .lua text).written (spaces n)) = [] ↔ Commented text) ∧
    (codeLines (a.render .lua scope) = codeLines (a.bare.render .lua scope) ↔ Commented a.desc) ∧
    (codeLines (v.render .lua scope) = codeLines (v.bare.render .lua scope) ↔ Commented v.desc) ∧
    (codeLines (e.render .lua scope) = codeLines (e.bare.render .lua scope) ↔
      Commented e.desc ∧ ∀ m ∈ e.members, ∀ text ∈ m.desc, Commented text) ∧
    (codeLines (c.render .lua scope) = codeLines (c.bare.render .lua scope) ↔
      Commented c.desc ∧ ∀ f ∈ c.fields, f.Contained) ∧
    ∃ text bare, f.render .lua = .ok text ∧ f.bare.render .lua = .ok bare ∧
      (codeLines text = codeLines bare ↔
        (∀ p ∈ f.params, p.Contained) ∧ ∀ r ∈ f.returns, r.Contained) :=
  ⟨codeLines_doc n text, a.codeLines_iff scope, v.codeLines_iff scope, e.codeLines_iff scope,
    c.codeLines_iff scope, f.codeLines_iff⟩

example : Commented "a\r\n--b" ∧ ¬ Commented "a\rb" := by decide

/-- A variable whose description would run. -/
def Variable.leaking : Variable := { name := "X", desc := "note\ros.exit()" }

theorem leaking_codeLines :
    codeLines (Variable.leaking.render .lua .topLevel) ≠
      codeLines (Variable.leaking.bare.render .lua .topLevel) := by
  rw [Ne, Variable.codeLines_iff]
  decide

end Ambient
