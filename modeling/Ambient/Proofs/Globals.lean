import Ambient.Proofs.Layout.Namespace
import Ambient.Proofs.Outcomes
import Ambient.Proofs.Validation
import Mathlib.Data.List.Nodup

/-!
The globals of a Lua text. A namespace is a region between two comments there, so what is declared in
it is a global like what is declared at the top. Names are told apart within each scope only.
-/
namespace Ambient
open Doc Text Writer

/-! Rows that define a global. -/

def IsComment (r : List Char) : Prop := "---".toList <+: r

instance (r : List Char) : Decidable (IsComment r) :=
  inferInstanceAs (Decidable ("---".toList <+: r))

/-- A row inside a table, or the one that closes it. -/
def IsInner (r : List Char) : Prop := r.head? = some ' ' ∨ r.head? = some '\x7d'

/--
Rows that define one global of this name: comments, then the name with a value, whose table may go on
below, or the name of a function with its parameters.
-/
inductive Defines (name : String) : List (List Char) → Prop
  | comment {r : List Char} {rows : List (List Char)} (hr : IsComment r) (h : Defines name rows) :
      Defines name (r :: rows)
  | value (rest : String) {rows : List (List Char)} (h : ∀ r ∈ rows, IsInner r) :
      Defines name ((name ++ " = " ++ rest).toList :: rows)
  | function (rest : String) : Defines name [("function " ++ name ++ "(" ++ rest).toList]

theorem Defines.append {name : String} {before rows : List (List Char)}
    (hb : ∀ r ∈ before, IsComment r) (h : Defines name rows) : Defines name (before ++ rows) := by
  induction before with
  | nil => exact h
  | cons r before ih =>
    rw [List.forall_mem_cons] at hb
    exact .comment hb.1 (ih hb.2)

theorem isComment_append {s t : String} (h : IsComment s.toList) : IsComment (s ++ t).toList := by
  rw [String.toList_append]
  exact h.trans (List.prefix_append _ _)

theorem isComment_docIf (text : String) : ∀ r ∈ (Step.docIf .lua text).rows 0, IsComment r := by
  rw [Step.rows]
  split
  · simp
  · refine List.forall_mem_map.mpr fun l hl => ?_
    obtain ⟨k, -, rfl⟩ := List.mem_map.mp hl
    exact isComment_append (by decide)

theorem Alias.isComment (a : Alias) (scope : Scope) :
    ∀ r ∈ rowsFrom Dialect.lua.indent 0 (a.steps .lua scope), IsComment r := by
  refine List.forall_mem_append.mpr ⟨isComment_docIf a.desc, List.forall_mem_singleton.mpr ?_⟩
  exact isComment_append (isComment_append (isComment_append (by decide)))

theorem Variable.defines (v : Variable) (scope : Scope) :
    Defines v.name (rowsFrom Dialect.lua.indent 0 (v.steps .lua scope)) :=
  .append (isComment_docIf v.desc) (.comment (isComment_append (by decide))
    (.value (Value.literalOrUnset .lua v.value) (List.forall_mem_nil _)))

/-- A table that is opened behind the name. -/
theorem Defines.table {name : String} {rows : List (List Char)} (h : ∀ r ∈ rows, IsInner r) :
    Defines name ((name ++ " = \x7b").toList :: rows) := by
  have hd : Defines name ((name ++ " = " ++ "\x7b").toList :: rows) := .value "\x7b" h
  rwa [String.append_assoc] at hd

/-- A table without entries. -/
theorem Defines.emptyTable (name : String) : Defines name [(name ++ " = \x7b\x7d").toList] := by
  have hd : Defines name [(name ++ " = " ++ "\x7b\x7d").toList] :=
    .value "\x7b\x7d" (List.forall_mem_nil _)
  rwa [String.append_assoc] at hd

theorem Class.defines (c : Class) (scope : Scope) :
    Defines c.name (rowsFrom Dialect.lua.indent 0 (c.steps .lua scope)) := by
  have hrows : rowsFrom Dialect.lua.indent 0 c.luaSteps = c.lines.map String.toList := by
    rw [c.luaSteps_eq, rowsFrom_lines]
  have hf : ∀ r ∈ (c.fields.map Field.annotation).map String.toList, IsComment r :=
    List.forall_mem_map.mpr (List.forall_mem_map.mpr fun f _ => isComment_append (isComment_append
      (isComment_append (isComment_append (isComment_append (by decide))))))
  refine .append (isComment_docIf c.desc) ?_
  change Defines c.name (rowsFrom Dialect.lua.indent 0 c.luaSteps)
  rw [hrows, Class.lines, List.map_append, List.map_cons]
  exact .comment (isComment_append (isComment_append (by decide)))
    (.append hf (.emptyTable c.name))

/-- What stands under the line that opens a table, down to the brace that closes it. -/
theorem isInner_body {body : List Step} (h : ∀ s ∈ body, s.IsFlat) :
    ∀ r ∈ rowsFrom Dialect.lua.indent 0 (.indent :: (body ++ [.dedent, .line "\x7d"])), IsInner r := by
  have hb : ∀ r ∈ rowsFrom Dialect.lua.indent 1 body, IsInner r := by
    intro r hr
    obtain ⟨l, rfl⟩ := blanks_prefix_rowsFrom h Dialect.lua.indent 1 r hr
    exact Or.inl rfl
  rw [rowsFrom, rowsFrom_append, levelAfter_of_isFlat h]
  refine List.forall_mem_append.mpr ⟨List.forall_mem_nil _, List.forall_mem_append.mpr ⟨hb, ?_⟩⟩
  exact List.forall_mem_singleton.mpr (Or.inr rfl)

theorem Enum.defines (e : Enum) (scope : Scope) :
    Defines e.name (rowsFrom Dialect.lua.indent 0 (e.steps .lua scope)) := by
  refine .append (isComment_docIf e.desc) (.comment (isComment_append (by decide)) ?_)
  obtain ⟨name, constant, members, desc⟩ := e
  cases members with
  | nil =>
    change Defines name [(name ++ " = \x7b" ++ "\x7d").toList]
    rw [String.append_assoc]
    exact .emptyTable name
  | cons m ms =>
    have hb := isInner_body (Enum.Count.entries_isFlat .start .lua (m :: ms))
    change Defines name ((name ++ " = \x7b").toList :: rowsFrom Dialect.lua.indent 0
      (.indent :: (Enum.Count.start.entries .lua (m :: ms) ++ [.dedent, .line "\x7d"])))
    exact .table hb

theorem Function.defines (f : Function) : Defines f.name (f.lines.map String.toList) := by
  have hp : ∀ r ∈ (f.params.map Parameter.annotation).map String.toList, IsComment r := by
    refine List.forall_mem_map.mpr (List.forall_mem_map.mpr fun p _ => ?_)
    simp only [Parameter.annotation, String.append_assoc]
    exact isComment_append (by decide)
  have hr : ∀ r ∈ (f.returns.map Return.annotation).map String.toList, IsComment r := by
    refine List.forall_mem_map.mpr (List.forall_mem_map.mpr fun p _ => ?_)
    simp only [Return.annotation, String.append_assoc]
    exact isComment_append (by decide)
  have hd : Defines f.name [("function " ++ f.name ++ "(" ++ (f.luaParams ++ ") end")).toList] :=
    .function (f.luaParams ++ ") end")
  rw [← String.append_assoc] at hd
  simpa [Function.lines] using Defines.append hp (Defines.append hr hd)

/-- Every member defines one global, and nothing beside it. -/
theorem Member.defines (m : Member) (scope : Scope) : Defines m.name (m.lines .lua scope) := by
  cases m with
  | enum e => exact e.defines scope
  | cls c => exact c.defines scope
  | var v => exact v.defines scope
  | func f => exact f.defines

/-! Texts. -/

/-- A text whose rows define one global of this name. -/
def DefinesGlobal (name text : String) : Prop :=
  ∃ rows, Defines name rows ∧ text.toList = ['\n'].intercalate rows

theorem Member.toList_render {m : Member} {d : Dialect} {scope : Scope} {text : String}
    (h : m.render d scope = .ok text) : text.toList = ['\n'].intercalate (m.lines d scope) := by
  cases m with
  | enum e =>
    obtain rfl := Except.ok.inj h
    exact toList_render_of_endsInLine (e.endsInLine_steps d scope)
  | cls c =>
    obtain rfl := Except.ok.inj h
    exact toList_render_of_endsInLine (c.endsInLine_steps d scope)
  | var v =>
    obtain rfl := Except.ok.inj h
    exact toList_render_of_endsInLine (v.endsInLine_steps d scope)
  | func f =>
    cases d with
    | typeScript => cases h
    | lua => exact Function.toList_render h

theorem Member.definesGlobal {m : Member} {scope : Scope} {text : String}
    (h : m.render .lua scope = .ok text) : DefinesGlobal m.name text :=
  ⟨m.lines .lua scope, m.defines scope, Member.toList_render h⟩

theorem Member.exists_render_lua (m : Member) (scope : Scope) :
    ∃ text, m.render .lua scope = .ok text := by
  cases m <;> exact ⟨_, rfl⟩

theorem Namespace.render_lua (n : Namespace) :
    ∃ text texts, n.render .lua .topLevel = .ok text ∧
      List.Forall₂ (fun m t => m.render .lua .inNamespace = .ok t) n.members texts ∧
      text.toList =
        ['\n'].intercalate (n.framed .lua .topLevel (texts.map fun t => lineList t.toList)) := by
  obtain ⟨texts, ht⟩ := exists_mapM_eq_ok_iff.mpr fun (m : Member) (_ : m ∈ n.members) =>
    m.exists_render_lua .inNamespace
  have hr := rowsFrom_frame Dialect.lua.indent ("--#region " ++ n.name) "--#endregion" texts
  have he : EndsInLine (Namespace.layout n.name .lua .topLevel texts) :=
    ⟨_ :: Namespace.separated texts, _, rfl, by decide⟩
  refine ⟨_, texts, Namespace.render_of_mapM ht .topLevel, mapM_eq_ok_iff.mp ht, ?_⟩
  rw [toList_render_of_endsInLine he]
  exact congrArg ['\n'].intercalate hr

/-! Scopes. -/

/-- What a declaration defines, and the namespace it stands in if it is not at the top. -/
structure Definition where
  scope : Option String
  member : Member

def Definition.name (x : Definition) : String := x.member.name

/-- An alias is only a comment. -/
def Declaration.definitions : Declaration → List Definition
  | .alias _ => []
  | .member m => [⟨none, m⟩]
  | .space n => n.members.map fun m => ⟨some n.name, m⟩

/-- The definitions of a file in the order in which they are written. -/
def File.definitions (f : File) : List Definition := f.declarations.flatMap Declaration.definitions

/-- Declarations that define one name in one scope have one name themselves. -/
theorem Declaration.name_eq_of_definitions {d e : Declaration} {x y : Definition}
    (hx : x ∈ d.definitions) (hy : y ∈ e.definitions) (hs : x.scope = y.scope)
    (hn : x.name = y.name) : d.name = e.name := by
  rcases d with a | m | n
  · cases hx
  · obtain rfl := List.mem_singleton.mp hx
    rcases e with b | k | p
    · cases hy
    · obtain rfl := List.mem_singleton.mp hy
      exact hn
    · obtain ⟨k, -, rfl⟩ := List.mem_map.mp hy
      cases hs
  · obtain ⟨m, -, rfl⟩ := List.mem_map.mp hx
    rcases e with b | k | p
    · cases hy
    · obtain rfl := List.mem_singleton.mp hy
      cases hs
    · obtain ⟨k, -, rfl⟩ := List.mem_map.mp hy
      exact Option.some.inj hs

theorem File.WellFormed.nodup_definitions {f : File} (h : f.WellFormed) :
    (f.definitions.map fun x => (x.scope, x.name)).Nodup := by
  have hnames := h.nodup
  rw [← f.map_declarations_name] at hnames
  rw [File.definitions, List.map_flatMap, List.nodup_flatMap]
  refine ⟨fun d hd => ?_, (List.pairwise_map.mp hnames).imp fun {d e} hne => ?_⟩
  · rcases d with a | m | n
    · exact List.nodup_nil
    · exact List.nodup_singleton _
    · have hn : n ∈ f.namespaces := by simpa [File.declarations] using hd
      have hm := (h.namespaces n hn).nodup
      rw [← n.map_members_name] at hm
      refine List.Nodup.of_map Prod.snd ?_
      rw [Declaration.definitions, List.map_map, List.map_map]
      exact hm
  · intro p hp hq
    obtain ⟨x, hx, rfl⟩ := List.mem_map.mp hp
    obtain ⟨y, hy, he⟩ := List.mem_map.mp hq
    obtain ⟨hs, hn⟩ := Prod.mk.inj he
    exact hne (Declaration.name_eq_of_definitions hx hy hs.symm hn.symm)

/-- Names that differ within each scope differ altogether unless two scopes share one. -/
theorem nodup_names_iff {xs : List Definition} (h : (xs.map fun x => (x.scope, x.name)).Nodup) :
    (xs.map Definition.name).Nodup ↔
      ∀ x ∈ xs, ∀ y ∈ xs, x.name = y.name → x.scope = y.scope := by
  constructor
  · intro hd x hx y hy he
    rw [List.inj_on_of_nodup_map hd hx hy he]
  · intro hs
    refine h.of_map.map_on fun x hx y hy he => ?_
    exact List.inj_on_of_nodup_map h hx hy (Prod.ext (hs x hx y hy he) he)

/-! Sections. -/

/-- What the section for a declaration shows. -/
def Declaration.Shows : Declaration → String → Prop
  | .alias _, text => ∃ rows, (∀ r ∈ rows, IsComment r) ∧ text.toList = ['\n'].intercalate rows
  | .member m, text => DefinesGlobal m.name text
  | .space n, text => ∃ texts, List.Forall₂ (fun m t => DefinesGlobal m.name t) n.members texts ∧
      text.toList =
        ['\n'].intercalate (n.framed .lua .topLevel (texts.map fun t => lineList t.toList))

theorem Alias.endsInLine_steps (a : Alias) (d : Dialect) (scope : Scope) :
    EndsInLine (a.steps d scope) := by
  refine ⟨[_], _, rfl, ?_⟩
  cases d <;> simp [Alias.line]

theorem Declaration.exists_render_lua (d : Declaration) : ∃ text, d.render .lua = .ok text := by
  rcases d with a | m | n
  · exact ⟨_, rfl⟩
  · exact m.exists_render_lua .topLevel
  · obtain ⟨text, -, h, -⟩ := n.render_lua
    exact ⟨text, h⟩

theorem Declaration.shows {d : Declaration} {text : String} (h : d.render .lua = .ok text) :
    d.Shows text := by
  rcases d with a | m | n
  · obtain rfl := Except.ok.inj h
    exact ⟨_, a.isComment .topLevel, toList_render_of_endsInLine (a.endsInLine_steps .lua .topLevel)⟩
  · exact Member.definesGlobal h
  · obtain ⟨text', texts, hr, ht, hs⟩ := n.render_lua
    obtain rfl := Except.ok.inj (hr.symm.trans h)
    exact ⟨texts, ht.imp fun m t hm => Member.definesGlobal hm, hs⟩

theorem File.render_lua (f : File) :
    ∃ sections, f.render .lua = .ok (joined ("---@meta" :: sections)) ∧
      List.Forall₂ (fun d s => d.render .lua = .ok s) f.declarations sections := by
  obtain ⟨sections, hs⟩ := exists_mapM_eq_ok_iff.mpr fun (d : Declaration) (_ : d ∈ f.declarations) =>
    d.exists_render_lua
  exact ⟨sections, File.render_of_mapM hs, mapM_eq_ok_iff.mp hs⟩

/-! Globals read off the lines of a text. -/

/-- The global that a line defines: a word before an equals sign, or what `function` names. -/
def globalOf (l : List Char) : Option (List Char) :=
  let word := l.takeWhile Enum.isIdentifierPart
  let rest := l.dropWhile Enum.isIdentifierPart
  if word = "function".toList then some (rest.tail.takeWhile (· ≠ '('))
  else if Enum.isIdentifier word ∧ " = ".toList <+: rest then some word
  else none

def globals (text : String) : List (List Char) := (pieces text.toList).filterMap globalOf

/-- A name that Lua reads as one. -/
def IsLuaName (name : String) : Prop :=
  Enum.isIdentifier name.toList = true ∧ name ∉ Enum.luaKeywords

theorem isIdentifierPart_of_isIdentifier {s : List Char} (h : Enum.isIdentifier s = true) :
    ∀ c ∈ s, Enum.isIdentifierPart c = true := by
  cases s with
  | nil => cases h
  | cons c s =>
    obtain ⟨hc, hs⟩ := Bool.and_eq_true_iff.mp h
    refine List.forall_mem_cons.mpr ⟨?_, List.all_eq_true.mp hs⟩
    simp only [Enum.isIdentifierStart, Enum.isIdentifierPart, Char.isAlphanum] at hc ⊢
    grind

theorem globalOf_of_head? {l : List Char} (h : ∀ c ∈ l.head?, Enum.isIdentifierPart c = false) :
    globalOf l = none := by
  cases l with
  | nil => decide
  | cons c l =>
    have hc : Enum.isIdentifierPart c = false := h c rfl
    simp [globalOf, hc, Enum.isIdentifier]

theorem globalOf_dash (l : List Char) : globalOf ('-' :: l) = none := by
  refine globalOf_of_head? fun c hc => ?_
  obtain rfl := Option.some.inj hc
  decide

theorem globalOf_comment {r : List Char} (h : IsComment r) : globalOf r = none := by
  obtain ⟨l, rfl⟩ := h
  exact globalOf_dash _

theorem globalOf_inner {r : List Char} (h : IsInner r) : globalOf r = none := by
  refine globalOf_of_head? fun c hc => ?_
  rcases h with h | h <;>
  · rw [h] at hc
    obtain rfl := Option.some.inj hc
    decide

theorem IsLuaName.globalOf_value {name : String} (h : IsLuaName name) (rest : String) :
    globalOf (name ++ " = " ++ rest).toList = some name.toList := by
  have hp := isIdentifierPart_of_isIdentifier h.1
  have hk : name.toList ≠ "function".toList := fun he =>
    h.2 (String.toList_injective he ▸ by decide)
  have hl : (name ++ " = " ++ rest).toList =
      name.toList ++ (' ' :: ("= ".toList ++ rest.toList)) := by simp
  simp only [globalOf, hl, List.takeWhile_append_of_pos hp, List.dropWhile_append_of_pos hp]
  rw [List.takeWhile_cons_of_neg (by decide), List.dropWhile_cons_of_neg (by decide),
    List.append_nil, if_neg hk, if_pos ⟨h.1, ⟨rest.toList, rfl⟩⟩]

theorem IsLuaName.globalOf_function {name : String} (h : IsLuaName name) (rest : String) :
    globalOf ("function " ++ name ++ "(" ++ rest).toList = some name.toList := by
  have hw : ∀ c ∈ "function".toList, Enum.isIdentifierPart c = true :=
    List.all_eq_true.mp (by decide)
  have hp : ∀ c ∈ name.toList, decide (c ≠ '(') = true := by
    intro c hc
    have hpart := isIdentifierPart_of_isIdentifier h.1 c hc
    rw [decide_eq_true_eq]
    rintro rfl
    exact absurd hpart (by decide)
  have hl : ("function " ++ name ++ "(" ++ rest).toList =
      "function".toList ++ (' ' :: (name.toList ++ '(' :: rest.toList)) := by simp
  simp only [globalOf, hl, List.takeWhile_append_of_pos hw, List.dropWhile_append_of_pos hw]
  rw [List.takeWhile_cons_of_neg (by decide), List.dropWhile_cons_of_neg (by decide),
    List.append_nil, if_pos rfl, List.tail_cons, List.takeWhile_append_of_pos hp,
    List.takeWhile_cons_of_neg (by decide), List.append_nil]

theorem Defines.filterMap_globalOf {name : String} {rows : List (List Char)} (h : Defines name rows)
    (hn : IsLuaName name) : rows.filterMap globalOf = [name.toList] := by
  induction h with
  | comment hr h ih => rw [List.filterMap_cons_none (globalOf_comment hr), ih]
  | value rest h =>
    rw [List.filterMap_cons_some (hn.globalOf_value rest),
      List.filterMap_eq_nil_iff.mpr fun r hr => globalOf_inner (h r hr)]
  | function rest => rw [List.filterMap_cons_some (hn.globalOf_function rest), List.filterMap_nil]

/-! Declarations of Lua names that keep to their lines. -/

structure Alias.Tidy (a : Alias) : Prop where
  name : OneLine a.name
  type : a.type.OneLine
  desc : Unreturned a.desc

def Declaration.Tidy : Declaration → Prop
  | .alias a => a.Tidy
  | .member m => m.Tidy
  | .space n => n.Tidy

structure File.Tidy (f : File) : Prop where
  declarations : ∀ d ∈ f.declarations, d.Tidy
  names : ∀ x ∈ f.definitions, IsLuaName x.name

theorem pieces_intercalate {rows : List (List Char)} (h : ∀ r ∈ rows, IsLine r) (hne : rows ≠ []) :
    pieces (['\n'].intercalate rows) = rows := by
  obtain ⟨rs, last, rfl⟩ := (List.eq_nil_or_concat' rows).resolve_left hne
  rw [← terminated_append_eq, pieces_terminated h]

theorem globals_of_rows {text : String} {rows : List (List Char)} (h : ∀ r ∈ rows, IsLine r)
    (hne : rows ≠ []) (ht : text.toList = ['\n'].intercalate rows) :
    globals text = rows.filterMap globalOf := by
  rw [globals, ht, pieces_intercalate h hne]

theorem Alias.Tidy.globals_render {a : Alias} (h : a.Tidy) (scope : Scope) :
    globals (a.render .lua scope) = [] := by
  have hs : ∀ s ∈ a.steps .lua scope, s.Tidy :=
    List.forall_mem_cons.mpr ⟨h.desc,
      List.forall_mem_singleton.mpr (Alias.oneLine_line h.name h.type .lua scope)⟩
  rw [globals, Alias.render, (laidOut_render hs (a.endsInLine_steps .lua scope)).pieces_eq,
    List.filterMap_eq_nil_iff]
  exact fun r hr => globalOf_comment (a.isComment scope r hr)

theorem Member.Tidy.globals_render {m : Member} (h : m.Tidy) (hn : IsLuaName m.name) {scope : Scope}
    {text : String} (ht : m.render .lua scope = .ok text) : globals text = [m.name.toList] := by
  rw [globals, (h.laidOut ht).pieces_eq, (m.defines scope).filterMap_globalOf hn]

theorem filterMap_separatedLines (blocks : List (List (List Char))) :
    (separatedLines blocks).filterMap globalOf = blocks.flatMap (List.filterMap globalOf) := by
  induction blocks with
  | nil => rfl
  | cons b blocks ih =>
    cases blocks with
    | nil => simp [separatedLines]
    | cons c blocks =>
      rw [separatedLines_cons_cons, List.filterMap_append,
        List.filterMap_cons_none (by decide : globalOf [] = none), ih]
      rfl

/-- The lines that a namespace finds in its members' texts are their lines. -/
theorem map_lineList_of_render {ms : List Member} (h : ∀ m ∈ ms, m.Tidy) {texts : List String}
    (ht : List.Forall₂ (fun m t => m.render .lua .inNamespace = .ok t) ms texts) :
    texts.map (fun t => lineList t.toList) = ms.map (Member.lines .lua .inNamespace) := by
  induction ht with
  | nil => rfl
  | cons hm _ ih =>
    rw [List.forall_mem_cons] at h
    rw [List.map_cons, List.map_cons, (h.1.laidOut hm).lineList_eq, ih h.2]

theorem Member.Tidy.isLine {m : Member} (h : m.Tidy) (scope : Scope) :
    ∀ l ∈ m.lines .lua scope, IsLine l := by
  obtain ⟨text, ht⟩ := m.exists_render_lua scope
  exact (h.laidOut ht).isLine

theorem Namespace.Tidy.globals_render {n : Namespace} (h : n.Tidy)
    (hn : ∀ m ∈ n.members, IsLuaName m.name) {text : String}
    (ht : n.render .lua .topLevel = .ok text) :
    globals text = n.members.map fun m => m.name.toList := by
  obtain ⟨text', texts, hr, hm, hs⟩ := n.render_lua
  obtain rfl := Except.ok.inj (hr.symm.trans ht)
  rw [map_lineList_of_render (fun m hm => h.member hm) hm] at hs
  have hregion : OneLine ("--#region " ++ n.name) := oneLine_append.mpr ⟨by decide, h.name⟩
  have hlines := isLine_frame hregion (by decide : OneLine "--#endregion")
    (List.forall_mem_map.mpr fun m hm => Member.Tidy.isLine (h.member hm) .inNamespace)
  have hopen : globalOf ("--#region " ++ n.name).toList = none := by
    rw [String.toList_append]
    exact globalOf_dash _
  have hmembers : n.members.flatMap (fun m => (m.lines .lua .inNamespace).filterMap globalOf) =
      n.members.flatMap fun m => [m.name.toList] :=
    List.flatMap_congr fun m hm => (m.defines .inNamespace).filterMap_globalOf (hn m hm)
  have hclose : ["--#endregion".toList].filterMap globalOf = [] := by decide
  rw [globals_of_rows hlines (List.cons_ne_nil _ _) hs, List.cons_append,
    List.filterMap_cons_none hopen, List.filterMap_append, filterMap_separatedLines,
    List.flatMap_map, hmembers, hclose, List.append_nil, List.map_eq_flatMap]

/-! Whole files. -/

theorem globals_append_newline (s t : String) :
    globals (s ++ "\n" ++ t) = globals s ++ globals t := by
  have hl : (s ++ "\n" ++ t).toList = s.toList ++ '\n' :: t.toList := by simp
  rw [globals, hl, pieces, splitWhere_append_cons (by decide), List.filterMap_append]
  rfl

theorem globals_empty : globals "" = [] := by decide

theorem globals_joined (sections : List String) :
    globals (File.joined sections) = sections.flatMap globals := by
  induction sections with
  | nil => exact globals_empty
  | cons s sections ih =>
    cases sections with
    | nil =>
      have hs : File.joined [s] = s ++ "\n" ++ "" := by simp [File.joined]
      rw [hs, globals_append_newline, globals_empty]
      rfl
    | cons t sections =>
      have hs : File.joined (s :: t :: sections) =
          s ++ "\n" ++ ("" ++ "\n" ++ File.joined (t :: sections)) := by
        rw [File.joined_cons_cons, String.append_assoc, String.append_assoc, String.append_assoc]
        rfl
      rw [hs, globals_append_newline, globals_append_newline, globals_empty, ih]
      rfl

theorem Declaration.Tidy.globals_render {d : Declaration} (h : d.Tidy)
    (hn : ∀ x ∈ d.definitions, IsLuaName x.name) {text : String} (ht : d.render .lua = .ok text) :
    globals text = d.definitions.map fun x => x.name.toList := by
  rcases d with a | m | n
  · obtain rfl := Except.ok.inj ht
    exact Alias.Tidy.globals_render h .topLevel
  · exact Member.Tidy.globals_render h (hn _ List.mem_cons_self) ht
  · rw [Declaration.definitions, List.map_map]
    exact Namespace.Tidy.globals_render h (fun m hm => hn _ (List.mem_map_of_mem hm)) ht

theorem flatMap_globals {ds : List Declaration} (h : ∀ d ∈ ds, d.Tidy)
    (hn : ∀ d ∈ ds, ∀ x ∈ d.definitions, IsLuaName x.name) {sections : List String}
    (hs : List.Forall₂ (fun d s => d.render .lua = .ok s) ds sections) :
    sections.flatMap globals =
      (ds.flatMap Declaration.definitions).map fun x => x.name.toList := by
  induction hs with
  | nil => rfl
  | cons hd _ ih =>
    rw [List.forall_mem_cons] at h hn
    rw [List.flatMap_cons, List.flatMap_cons, List.map_append, ih h.2 hn.2,
      Declaration.Tidy.globals_render h.1 hn.1 hd]

/-- In Lua a tidy file defines the names of its definitions in their order, and no others. -/
theorem File.Tidy.globals_render {f : File} (h : f.Tidy) {text : String}
    (ht : f.render .lua = .ok text) : globals text = f.definitions.map fun x => x.name.toList := by
  obtain ⟨sections, hr, hs⟩ := f.render_lua
  obtain rfl := Except.ok.inj (hr.symm.trans ht)
  have hmeta : globals "---@meta" = [] := by decide
  rw [globals_joined, List.flatMap_cons, hmeta, List.nil_append]
  exact flatMap_globals h.declarations (List.forall_mem_flatMap.mp h.names) hs

/--
A file that loads renders as Lua, its sections in order, and each definition puts its name behind
comments of its own. No two definitions in one scope put the same name, so a name is put twice exactly
when two scopes hold it. Where the names are Lua's, the globals of the text are these and no others.
-/
theorem File.scopes_define_once {format : Manifest.Format} {source filename : String} {f : File}
    (h : Manifest.load format source filename = .ok f) :
    ∃ sections, f.render .lua = .ok (joined ("---@meta" :: sections)) ∧
      List.Forall₂ Declaration.Shows f.declarations sections ∧
      (f.definitions.map fun x => (x.scope, x.name)).Nodup ∧
      ((f.definitions.map Definition.name).Nodup ↔
        ∀ x ∈ f.definitions, ∀ y ∈ f.definitions, x.name = y.name → x.scope = y.scope) ∧
      (f.Tidy → globals (joined ("---@meta" :: sections)) =
        f.definitions.map fun x => x.name.toList) := by
  obtain ⟨-, hv⟩ := (load_eq_ok_iff format source filename f).mp h
  rw [validate_eq_firstOf, firstOf_eq_ok_iff, violations_eq_nil_iff] at hv
  obtain ⟨sections, hr, hs⟩ := f.render_lua
  exact ⟨sections, hr, hs.imp fun d s hd => Declaration.shows hd, hv.nodup_definitions,
    nodup_names_iff hv.nodup_definitions, fun ht => ht.globals_render hr⟩

/-! An enumeration at the top, and a namespace of a variable and a function. -/

namespace Console

def toml : String :=
  "[[enums]]\nname = \"Mode\"\nmembers = [\x7b name = \"On\" \x7d, \x7b name = \"Off\" \x7d]\n\n" ++
    "[[namespaces]]\nname = \"console\"\nvariables = [\x7b name = \"level\", value = 1 \x7d]\n" ++
    "functions = [\x7b name = \"reset\" \x7d]\n"

def mode : Enum := { name := "Mode", members := [{ name := "On" }, { name := "Off" }] }

def space : Namespace :=
  { name := "console", vars := [{ name := "level", value := some (.int 1) }],
    functions := [{ name := "reset" }] }

def file : File := { enums := [mode], namespaces := [space] }

theorem load_toml : Manifest.load .toml toml "decl.toml" = .ok file := by decide +kernel

theorem mode_tidy : mode.Tidy where
  name := by decide
  members := List.forall_mem_cons.mpr ⟨⟨by decide, by simp, by simp⟩,
    List.forall_mem_singleton.mpr ⟨by decide, by simp, by simp⟩⟩
  desc := by unfold Unreturned; decide

theorem space_tidy : space.Tidy where
  name := by decide
  enums := by simp [space]
  classes := by simp [space]
  vars := List.forall_mem_singleton.mpr
    ⟨by decide, nofun, by simp [Value.OneLine], by unfold Unreturned; decide⟩
  functions := List.forall_mem_singleton.mpr ⟨by decide, by simp, by simp⟩

theorem file_tidy : file.Tidy where
  declarations := List.forall_mem_cons.mpr ⟨mode_tidy, List.forall_mem_singleton.mpr space_tidy⟩
  names := by unfold IsLuaName; decide

theorem scopes_define_once_console :
    Manifest.load .toml toml "decl.toml" = .ok file ∧ file.Tidy ∧
      ∃ text, file.render .lua = .ok text ∧
        globals text = ["Mode", "level", "reset"].map String.toList := by
  obtain ⟨sections, hr, -, -, -, hg⟩ := File.scopes_define_once load_toml
  exact ⟨load_toml, file_tidy, _, hr, hg file_tidy⟩

end Console

/-! A variable of one name in each of two namespaces. -/

namespace Twice

def toml : String :=
  "[[namespaces]]\nname = \"a\"\nvariables = [\x7b name = \"x\" \x7d]\n\n" ++
    "[[namespaces]]\nname = \"b\"\nvariables = [\x7b name = \"x\" \x7d]\n"

def file : File where
  namespaces := [{ name := "a", vars := [{ name := "x" }] }, { name := "b", vars := [{ name := "x" }] }]

def text : String :=
  "---@meta\n\n--#region a\n---@type any\nx = nil\n--#endregion\n\n" ++
    "--#region b\n---@type any\nx = nil\n--#endregion\n"

theorem global_defined_twice :
    Manifest.load .toml toml "decl.toml" = .ok file ∧ file.render .lua = .ok text ∧
      globals text = ["x".toList, "x".toList] ∧ ¬ (file.definitions.map Definition.name).Nodup :=
  ⟨by decide +kernel, by decide +kernel, by decide +kernel, by decide⟩

end Twice
end Ambient
