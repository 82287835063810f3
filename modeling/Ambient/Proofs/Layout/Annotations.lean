import Ambient.Proofs.Layout.Member

/-!
Annotations in Lua, one to a line. A description behind an annotation is flattened, so a reader to whom a
line feed and a carriage return both end a line finds the annotations in their order, whatever it says.
-/
namespace Ambient
open Doc Text Writer

/-- The lines of a text to a reader of both line breaks. -/
def Doc.luaLines (text : String) : List String := (splitWhere isBreak text.toList).map String.ofList

theorem luaLines_eq {text : String} {ls : List String} (h : ∀ l ∈ ls, OneLine l) (hne : ls ≠ [])
    (ht : text.toList = ['\n'].intercalate (ls.map String.toList)) : luaLines text = ls := by
  obtain ⟨ks, last, rfl⟩ := (List.eq_nil_or_concat' ls).resolve_left hne
  have hk : (ks.map String.toList).flatMap (splitWhere isBreak) = ks.map String.toList := by
    have hs : ∀ k ∈ ks, splitWhere isBreak k.toList = [k.toList] := fun k hk =>
      splitWhere_of_forall (h k (List.mem_append_left _ hk))
    rw [List.flatMap_map, List.flatMap_congr hs, List.map_eq_flatMap]
  rw [List.map_append, List.map_singleton, ← terminated_append_eq] at ht
  rw [luaLines, ht, splitWhere_terminated (by decide), hk, splitWhere_of_forall (h last (by simp)),
    List.map_append, List.map_map]
  simp [Function.comp_def]

/-! What the lines say. -/

/-- A line that says this, with the description on the same line if there is one. -/
def noted (front lead : String) (desc : Option String) : String :=
  front ++ desc.elim "" fun text => lead ++ flatten text

/-- A name, with a question mark if what it names may be left out. -/
def marked (name : String) (optional : Bool) : String := name ++ if optional then "?" else ""

def typeOrAny (t : Option TypeRef) : String := t.elim "any" fun t => t.spelling .lua

def Parameter.shown (p : Parameter) : String :=
  noted ("---@param " ++ marked p.name p.optional ++ " " ++ typeOrAny p.type ++ " ") "" p.desc

def Return.shown (r : Return) : String :=
  noted ("---@return " ++ typeOrAny r.type ++ r.name.elim "" (" " ++ ·)) " # " r.desc

def Field.shown (f : Field) : String :=
  noted ("---@field " ++ marked f.name f.optional ++ " " ++ typeOrAny f.type) " " f.desc

def Function.shown (f : Function) : List String :=
  f.params.map Parameter.shown ++ f.returns.map Return.shown ++
    ["function " ++ f.name ++ "(" ++ ", ".intercalate (f.params.map Parameter.name) ++ ") end"]

def Class.shown (c : Class) : List String :=
  ("---@class " ++ c.name ++ c.parent.elim "" (" : " ++ ·)) :: c.fields.map Field.shown ++
    [c.name ++ " = \x7b\x7d"]

theorem spellingOrAny_lua (t : Option TypeRef) : TypeRef.spellingOrAny t .lua = typeOrAny t := by
  cases t <;> rfl

theorem Parameter.annotation_eq (p : Parameter) : p.annotation = p.shown := by
  cases hd : p.desc <;>
    simp [Parameter.annotation, shown, noted, marked, optionalMark, spellingOrAny_lua, hd,
      String.append_assoc]

theorem Return.annotation_eq (r : Return) : r.annotation = r.shown := by
  cases hd : r.desc <;> cases hn : r.name <;>
    simp [Return.annotation, shown, noted, spellingOrAny_lua, hd, hn, String.append_assoc]

theorem Field.annotation_eq (f : Field) : f.annotation = f.shown := by
  cases hd : f.desc <;>
    simp [Field.annotation, shown, noted, marked, optionalMark, spellingOrAny_lua, hd,
      String.append_assoc]

theorem Function.lines_eq (f : Function) : f.lines = f.shown := by
  rw [lines, shown, funext Parameter.annotation_eq, funext Return.annotation_eq, luaParams]

theorem Class.lines_eq (c : Class) : c.lines = c.shown := by
  rw [lines, shown, funext Field.annotation_eq]
  cases c.parent <;> rfl

/-! Texts. -/

theorem Class.toList_render_lua {c : Class} (h : c.desc = "") (scope : Scope) :
    (c.render .lua scope).toList = ['\n'].intercalate (c.lines.map String.toList) := by
  have hrows : rowsFrom Dialect.lua.indent 0 (c.steps .lua scope) = c.lines.map String.toList := by
    have hdoc : (Step.docIf .lua c.desc).rows 0 = [] := by rw [h]; rfl
    rw [Class.steps, rowsFrom, Nat.zero_mul, hdoc, List.nil_append]
    change rowsFrom _ 0 c.luaSteps = _
    rw [c.luaSteps_eq, rowsFrom_lines]
  rw [← hrows]
  exact toList_render_of_endsInLine (c.endsInLine_steps .lua scope)

/--
A function whose names and types have no line breaks is as many lines as it has parameters and results, and
one: their annotations in order, and the function with the names of its parameters. A class that has no
description itself is a line, the annotations of its fields, and a line. No description adds a line.
-/
theorem luaLines_shown :
    (∀ f : Function, f.Tidy → ∃ text, f.render .lua = .ok text ∧ luaLines text = f.shown ∧
      (luaLines text).length = f.params.length + f.returns.length + 1) ∧
    ∀ c : Class, c.desc = "" → c.bare.Tidy → ∀ scope,
      luaLines (c.render .lua scope) = c.shown ∧
        (luaLines (c.render .lua scope)).length = c.fields.length + 2 := by
  constructor
  · intro f h
    have hne : f.lines ≠ [] := by simp [Function.lines]
    have hl := luaLines_eq h.lines hne (Function.toList_render rfl)
    refine ⟨_, rfl, hl.trans f.lines_eq, ?_⟩
    rw [hl]
    simp [Function.lines, Nat.add_assoc]
  · intro c hd h scope
    have hl := luaLines_eq (Class.oneLine_lines h) (List.cons_ne_nil _ _) (Class.toList_render_lua hd scope)
    rw [hl]
    exact ⟨c.lines_eq, by simp [Class.lines]⟩

/-! Descriptions with both line breaks, blank lines and code. -/

namespace Prose

def greet : Function where
  name := "greet"
  params := [{ name := "who", type := some (.named "string"), optional := true,
               desc := some "the one\ros.exit()\n\n to greet" }, { name := "n" }]
  returns := [{ name := some "ok", desc := some "\r\n" }]
  desc := "Not written."

def point : Class where
  name := "Point"
  parent := some "Base"
  fields := [{ name := "x", desc := some "left\rx = 1\n" }]

theorem greet_tidy : greet.Tidy where
  name := by decide
  params := List.forall_mem_cons.mpr
    ⟨⟨by decide, by simp [TypeRef.OneLine]; decide⟩, List.forall_mem_singleton.mpr ⟨by decide, by simp⟩⟩
  returns := List.forall_mem_singleton.mpr ⟨by simp; decide, by simp⟩

theorem point_tidy : point.bare.Tidy where
  name := by decide
  parent := by simp [point, Class.bare]; decide
  fields := List.forall_mem_singleton.mpr
    ⟨by decide, by simp [Field.bare], by simp [Field.bare]⟩
  desc := by unfold Unreturned; decide

theorem luaLines_shown_prose :
    greet.Tidy ∧ point.desc = "" ∧ point.bare.Tidy ∧
    (∃ text, greet.render .lua = .ok text ∧ luaLines text =
      ["---@param who? string the one os.exit() to greet", "---@param n any ", "---@return any ok # ",
        "function greet(who, n) end"]) ∧
    luaLines (point.render .lua .topLevel) =
      ["---@class Point : Base", "---@field x any left x = 1", "Point = \x7b\x7d"] := by
  obtain ⟨text, ht, hl, -⟩ := luaLines_shown.1 greet greet_tidy
  obtain ⟨hc, -⟩ := luaLines_shown.2 point rfl point_tidy .topLevel
  exact ⟨greet_tidy, rfl, point_tidy, ⟨text, ht, hl.trans (by decide)⟩, hc.trans (by decide)⟩

end Prose
end Ambient
