import Ambient.CommandLine
import Ambient.Proofs.FileTree
import Ambient.Proofs.Globals

/-!
What checking a manifest says about rendering it. A dialect is warned of exactly when the file cannot
be written in it, so a check without that warning is followed by a text; a failed rendering leaves the
files alone.
-/
namespace Ambient

/-! Which declarations have a form in which dialect. -/

theorem Member.exists_render_iff (m : Member) (d : Dialect) (scope : Scope) :
    (∃ text, m.render d scope = .ok text) ↔ d = .lua ∨ m.kind ≠ .func := by
  cases m with
  | func f => cases d <;> simp [render, kind, Function.render, Function.inLua]
  | _ => simp [render, kind]

theorem Namespace.kind_ne_func_iff (n : Namespace) :
    (∀ m ∈ n.members, m.kind ≠ .func) ↔ n.functions = [] := by
  simp only [members, List.forall_mem_append, List.forall_mem_map, Member.kind]
  simp [List.eq_nil_iff_forall_not_mem]

theorem Namespace.exists_render_iff (n : Namespace) (d : Dialect) (scope : Scope) :
    (∃ text, n.render d scope = .ok text) ↔ d = .lua ∨ n.functions = [] := by
  rw [render_eq, exists_map_eq_ok_iff, exists_mapM_eq_ok_iff]
  simp only [Member.exists_render_iff, ← n.kind_ne_func_iff]
  by_cases hd : d = .lua <;> simp [hd]

/-- There is a function at the top or in a namespace. -/
def File.HasFunction (f : File) : Prop := f.functions ≠ [] ∨ ∃ n ∈ f.namespaces, n.functions ≠ []

/-- Only functions lack a form, and only in TypeScript. -/
theorem File.exists_render_iff (f : File) (d : Dialect) :
    (∃ text, f.render d = .ok text) ↔ d = .lua ∨ ¬ f.HasFunction := by
  rw [render_eq, exists_map_eq_ok_iff, exists_mapM_eq_ok_iff]
  simp only [declarations, List.forall_mem_append, List.forall_mem_map, Function.comp_apply,
    Declaration.render, Member.exists_render_iff, Namespace.exists_render_iff, Member.kind]
  by_cases hd : d = .lua
  · simp [hd]
  · simp [hd, HasFunction, List.eq_nil_iff_forall_not_mem]

namespace CommandLine

section Disks

variable {σ : Type} (disk : Disk (StateM σ)) (s : σ) (path : String)

/-- What the program does with the files of a disk, and how it leaves the disk. -/
def onDisk (args : List String) : Outcome × σ := (run disk args).run s

/-- The text of the file at a path. -/
def textAt : Except ReadFailure String := ((disk.read path).run s).1

/-- The manifest at a path. -/
def manifest : Except Manifest.LoadError File :=
  match textAt disk s path with
  | .error e => .error (.unreadable path e)
  | .ok source => Manifest.load (.ofPath path) source path

/-- The flag picks the dialect, else the manifest does, else it is Lua. -/
def chosenDialect (flag : Option Dialect) (loaded : Option File) : Dialect :=
  (flag.or (loaded.bind File.dialect)).getD .lua

/-- The manifest at the path loads, and has this text in the dialect chosen for it. -/
def RendersAs (flag : Option Dialect) (text : String) : Prop :=
  ∃ f, manifest disk s path = .ok f ∧ f.render (chosenDialect flag (some f)) = .ok text

/-- Making the directory around a file, if the path names one, leaves this disk. -/
def MadeAround (made : σ) : Prop :=
  match Path.parent? path with
  | none => made = s
  | some parent => (disk.makeDirectories parent).run s = (.ok (), made)

/-- The target takes any text: the directory around it can be made, and then the file can be written. -/
def Accepts (target : Option String) : Prop :=
  ∀ path ∈ target, ∃ made, MadeAround disk s path made ∧
    ∀ text, ∃ left, (disk.write path text).run made = (.ok (), left)

/-- What has become of a text: it was printed, or a file holds it. -/
def Delivered (text : String) (o : Outcome) (before after : σ) : Option String → Prop
  | none => o.stdout = text ∧ after = before
  | some path => o.stdout = "" ∧ textAt disk after path = .ok text

end Disks

section Lawful

variable {σ : Type} {disk : Disk (StateM σ)} {s s' : σ} {path : String}

theorem onDisk_of_parse {args : List String} {r : Request} (h : parse args = some r) :
    onDisk disk s args = (r.run disk).run s := by
  rw [onDisk, run, h]

theorem openManifest_run (hd : disk.Lawful) :
    (openManifest disk path).run s = (manifest disk s path, s) := by
  have hread : (disk.read path).run s = (textAt disk s path, s) :=
    Prod.ext rfl (hd.read_keeps path s)
  rw [openManifest, StateT.run_bind, hread, manifest]
  cases textAt disk s path <;> rfl

theorem runCheck_run (hd : disk.Lawful) :
    (runCheck disk path).run s =
      (match manifest disk s path with
        | .error e => .failure e.message
        | .ok f => report path f, s) := by
  rw [runCheck, StateT.run_bind, openManifest_run hd]
  cases manifest disk s path <;> rfl

/-! Rendering. -/

theorem runRender_run (hd : disk.Lawful) (flag : Option Dialect) (output : Option String) :
    (runRender disk path flag output).run s =
      match manifest disk s path with
      | .error e => (.failure e.message, s)
      | .ok f =>
        match f.render (chosenDialect flag (some f)) with
        | .error e => (.failure e.message, s)
        | .ok text => (deliver disk text output).run s := by
  rw [runRender, StateT.run_bind, openManifest_run hd]
  cases manifest disk s path with
  | error e => rfl
  | ok f =>
    have hf : flag.getD f.effectiveDialect = chosenDialect flag (some f) := by cases flag <;> rfl
    dsimp only [bind]
    rw [hf]
    cases f.render (chosenDialect flag (some f)) <;> rfl

theorem runRender_of_rendersAs (hd : disk.Lawful) {flag : Option Dialect} {text : String}
    (h : RendersAs disk s path flag text) (output : Option String) :
    (runRender disk path flag output).run s = (deliver disk text output).run s := by
  obtain ⟨f, hf, ht⟩ := h
  simp only [runRender_run hd, hf, ht]

/-- Without a text there is a message, and the disk is the one from before. -/
theorem runRender_of_not_rendersAs (hd : disk.Lawful) {flag : Option Dialect}
    (h : ¬ ∃ text, RendersAs disk s path flag text) (output : Option String) :
    ∃ message, (runRender disk path flag output).run s = (.failure message, s) := by
  rw [runRender_run hd]
  cases hf : manifest disk s path with
  | error e => exact ⟨_, rfl⟩
  | ok f =>
    cases ht : f.render (chosenDialect flag (some f)) with
    | error e => exact ⟨e.message, by simp only [ht]⟩
    | ok text => exact absurd ⟨text, f, hf, ht⟩ h

/-- Two steps lead to a file that is written, and each fails with a message of its own. -/
theorem deliver_run (text : String) :
    (deliver disk text (some path)).run s =
      match (makeAround disk path).run s with
      | (.error message, made) => (.failure message, made)
      | (.ok (), made) =>
        match (writeText disk path text).run made with
        | (.error message, left) => (.failure message, left)
        | (.ok (), left) => ({ exit := 0 }, left) := by
  have hbind : ∀ {α β : Type} (x : StateM σ α) (f : α → StateM σ β) (s : σ),
      (x >>= f).run s = (f (x.run s).1).run (x.run s).2 := fun _ _ _ => rfl
  rw [deliver, hbind]
  rcases (makeAround disk path).run s with ⟨_ | _, made⟩
  · rfl
  · dsimp only
    rw [hbind]
    rcases (writeText disk path text).run made with ⟨_ | _, left⟩ <;> rfl

/-- Whatever a failure is told as, success is success. -/
theorem run_mapError_iff {ε ε' α : Type} {x : StateM σ (Except ε α)} {f : ε → ε'} {a : α} :
    (do return (← x).mapError f : StateM σ (Except ε' α)).run s = (.ok a, s') ↔
      x.run s = (.ok a, s') := by
  rw [StateT.run_bind]
  rcases x.run s with ⟨_ | _, left⟩
  · constructor <;> intro h <;> cases (Prod.mk.inj h).1
  · constructor <;> intro h <;> cases h <;> rfl

theorem makeAround_run_iff :
    (makeAround disk path).run s = (.ok (), s') ↔ MadeAround disk s path s' := by
  unfold makeAround MadeAround
  cases Path.parent? path with
  | none => exact ⟨fun h => (Prod.mk.inj h).2.symm, fun h => h ▸ rfl⟩
  | some parent => exact run_mapError_iff

theorem writeText_run_iff {text : String} :
    (writeText disk path text).run s = (.ok (), s') ↔ (disk.write path text).run s = (.ok (), s') :=
  run_mapError_iff

theorem delivered_of_exit_eq_zero (hd : disk.Lawful) {text : String} {output : Option String}
    {o : Outcome} (h : (deliver disk text output).run s = (o, s')) (ho : o.exit = 0) :
    Delivered disk text o s s' output := by
  cases output with
  | none =>
    obtain ⟨rfl, rfl⟩ := Prod.mk.inj h
    exact ⟨rfl, rfl⟩
  | some path =>
    rw [deliver_run] at h
    split at h
    · obtain ⟨rfl, -⟩ := Prod.mk.inj h
      exact absurd ho Nat.one_ne_zero
    · split at h
      · obtain ⟨rfl, -⟩ := Prod.mk.inj h
        exact absurd ho Nat.one_ne_zero
      next hw =>
        obtain ⟨rfl, rfl⟩ := Prod.mk.inj h
        exact ⟨rfl, hd.read_write (writeText_run_iff.mp hw)⟩

theorem exit_deliver {output : Option String} (h : Accepts disk s output) (text : String) :
    ((deliver disk text output).run s).1.exit = 0 := by
  cases output with
  | none => rfl
  | some path =>
    obtain ⟨made, hm, hwrite⟩ := h path rfl
    obtain ⟨left, hw⟩ := hwrite text
    rw [deliver_run, makeAround_run_iff.mpr hm]
    dsimp only
    rw [writeText_run_iff.mpr hw]

end Lawful

/-! Warnings. -/

/-- A line says that the file cannot be written in the dialect. -/
def Outcome.Warns (o : Outcome) (d : Dialect) : Prop :=
  ∃ reason, "warning: cannot render as " ++ d.name ++ ": " ++ reason ∈ o.warnings

/-- A warning tells its dialect, whatever the reason. -/
theorem dialect_eq_of_warning {d d' : Dialect} {s s' : String}
    (h : "warning: cannot render as " ++ d.name ++ ": " ++ s =
      "warning: cannot render as " ++ d'.name ++ ": " ++ s') : d = d' := by
  have h := congrArg String.toList h
  simp only [String.toList_append, List.append_assoc, List.append_cancel_left_eq] at h
  cases d <;> cases d'
  · rfl
  · exact absurd (List.cons.inj h).1 (by decide)
  · exact absurd (List.cons.inj h).1 (by decide)
  · rfl

theorem report_warns_iff (path : String) (f : File) (d : Dialect) :
    (report path f).Warns d ↔ ¬ ∃ text, f.render d = .ok text := by
  have hall : d ∈ Dialect.all := by cases d <;> decide
  constructor
  · rintro ⟨reason, h⟩ ⟨text, ht⟩
    obtain ⟨⟨d', e⟩, hu, hw⟩ := List.mem_map.mp h
    obtain rfl := dialect_eq_of_warning hw
    obtain ⟨x, -, hx⟩ := List.mem_filterMap.mp hu
    cases hr : f.render x with
    | ok _ => simp [hr] at hx
    | error e' =>
      simp [hr] at hx
      obtain ⟨rfl, rfl⟩ := hx
      rw [ht] at hr
      cases hr
  · intro h
    cases hr : f.render d with
    | ok text => exact absurd ⟨text, hr⟩ h
    | error e =>
      refine ⟨e.message, List.mem_map.mpr ⟨(d, e), List.mem_filterMap.mpr ⟨d, hall, ?_⟩, rfl⟩⟩
      rw [hr]

theorem report_warns_lua (path : String) (f : File) : ¬ (report path f).Warns .lua := by
  rw [report_warns_iff, f.exists_render_iff]
  simp

theorem report_warns_typeScript_iff (path : String) (f : File) :
    (report path f).Warns .typeScript ↔ f.HasFunction := by
  rw [report_warns_iff, f.exists_render_iff]
  simp

section Lawful

variable {σ : Type} {disk : Disk (StateM σ)} {s : σ} {path : String} {flag : Option Dialect}

/-- A check that passes without a warning of the dialect is one of a manifest with a text. -/
theorem check_passes_iff (hd : disk.Lawful) {o : Outcome} {s' : σ}
    (h : (runCheck disk path).run s = (o, s')) :
    (o.exit = 0 ∧ ¬ o.Warns (chosenDialect flag (manifest disk s path).toOption)) ↔
      ∃ text, RendersAs disk s path flag text := by
  rw [runCheck_run hd] at h
  obtain ⟨rfl, -⟩ := Prod.mk.inj h
  cases hf : manifest disk s path with
  | error e => simp [RendersAs, hf, Outcome.failure]
  | ok f =>
    simp only [report_warns_iff, not_not, RendersAs, hf, Except.ok.injEq, Except.toOption]
    simp [report]

/--
Rendering succeeds exactly where the check passes without a warning of the chosen dialect, and puts the
file's text where it was asked to. Of a manifest that loads the check never warns of Lua, and of
TypeScript when there is a function. Without a text the program ends with one, prints nothing and
leaves the disk as it was. The disk may be any that reads back what it wrote, and the target any path on it.
-/
theorem check_predicts_render (hd : disk.Lawful) {output : Option String}
    {renderArgs checkArgs : List String} (hr : parse renderArgs = some (.render path flag output))
    (hc : parse checkArgs = some (.check path)) (hw : Accepts disk s output) :
    ∃ rendered left checked,
      onDisk disk s renderArgs = (rendered, left) ∧ onDisk disk s checkArgs = (checked, s) ∧
      (rendered.exit = 0 ↔
        checked.exit = 0 ∧ ¬ checked.Warns (chosenDialect flag (manifest disk s path).toOption)) ∧
      (∀ f, manifest disk s path = .ok f →
        checked.exit = 0 ∧ ¬ checked.Warns .lua ∧ (checked.Warns .typeScript ↔ f.HasFunction)) ∧
      (rendered.exit = 0 →
        ∃ text, RendersAs disk s path flag text ∧ Delivered disk text rendered s left output) ∧
      ((¬ ∃ text, RendersAs disk s path flag text) →
        rendered.exit = 1 ∧ rendered.stdout = "" ∧ left = s) := by
  obtain ⟨checked, hcheck⟩ : ∃ o, (runCheck disk path).run s = (o, s) := ⟨_, runCheck_run hd⟩
  obtain ⟨rendered, left, hrender⟩ :
      ∃ o s', (runRender disk path flag output).run s = (o, s') := ⟨_, _, rfl⟩
  have hfail : (¬ ∃ text, RendersAs disk s path flag text) →
      rendered.exit = 1 ∧ rendered.stdout = "" ∧ left = s := by
    intro hn
    obtain ⟨message, hm⟩ := runRender_of_not_rendersAs hd hn output
    obtain ⟨rfl, rfl⟩ := Prod.mk.inj (hrender.symm.trans hm)
    exact ⟨rfl, rfl, rfl⟩
  have hexists : rendered.exit = 0 → ∃ text, RendersAs disk s path flag text := by
    intro ho
    by_contra hn
    rw [(hfail hn).1] at ho
    exact absurd ho Nat.one_ne_zero
  refine ⟨rendered, left, checked, (onDisk_of_parse hr).trans hrender,
    (onDisk_of_parse hc).trans hcheck, ?_, fun f hf => ?_, fun ho => ?_, hfail⟩
  · rw [check_passes_iff hd hcheck]
    refine ⟨hexists, fun ⟨text, h⟩ => ?_⟩
    have ho := exit_deliver hw text
    rwa [← runRender_of_rendersAs hd h, hrender] at ho
  · rw [runCheck_run hd, hf] at hcheck
    obtain ⟨rfl, -⟩ := Prod.mk.inj hcheck
    exact ⟨rfl, report_warns_lua path f, report_warns_typeScript_iff path f⟩
  · obtain ⟨text, h⟩ := hexists ho
    rw [runRender_of_rendersAs hd h] at hrender
    exact ⟨text, h, delivered_of_exit_eq_zero hd hrender ho⟩

end Lawful

/-! Files in a tree. -/

section Trees

variable {t left : FileTree} {path : String}

theorem madeAround_tree_iff :
    MadeAround FileTree.disk t path left ↔ t.insertAround path = .ok left := by
  unfold MadeAround FileTree.insertAround
  cases Path.parent? path with
  | none => simp [eq_comm]
  | some parent =>
    change t.makeDirectories parent = (.ok (), left) ↔ t.insertDirectory parent = .ok left
    rw [FileTree.insertDirectory]
    rcases t.makeDirectories parent with ⟨_ | _, made⟩ <;> simp

/-- A tree takes any text at a path where it takes one. -/
theorem accepts_tree_iff (text : String) :
    Accepts FileTree.disk t (some path) ↔ ∃ left, t.insert path (.text text) = .ok left := by
  simp only [Accepts, Option.mem_def, Option.some.injEq, forall_eq', madeAround_tree_iff]
  constructor
  · rintro ⟨made, hmade, hwrite⟩
    obtain ⟨left, hleft⟩ := hwrite text
    exact ⟨left, bind_eq_ok_iff.mpr ⟨made, hmade, FileTree.settle_eq_ok_iff.mp hleft⟩⟩
  · rintro ⟨left, hinsert⟩
    obtain ⟨made, hmade, hleft⟩ := bind_eq_ok_iff.mp hinsert
    refine ⟨made, hmade, fun text' => ?_⟩
    obtain ⟨left', hleft'⟩ := (FileTree.exists_write_iff _ (.text text')).mp ⟨left, hleft⟩
    exact ⟨left', FileTree.settle_eq_ok_iff.mpr hleft'⟩

end Trees

/-! A namespace with a function: Lua takes it, TypeScript is warned of. -/

namespace Desk

def tree : FileTree where
  home := ["desk", "home"]
  nodes := [(["decl.toml", "desk", "home"], .text Console.toml),
    (["globals.d.ts", "desk", "home"], .text "declare const before: number;\n")]

theorem manifest_tree : manifest FileTree.disk tree "/home/desk/decl.toml" = .ok Console.file := by
  have hread : textAt FileTree.disk tree "/home/desk/decl.toml" = .ok Console.toml := by
    decide +kernel
  have hformat : Manifest.Format.ofPath "/home/desk/decl.toml" = .toml := by decide +kernel
  have hload : Manifest.load .toml Console.toml "/home/desk/decl.toml" = .ok Console.file :=
    (File.load_eq_ok_iff ..).mpr ((File.load_eq_ok_iff ..).mp Console.load_toml)
  rw [manifest, hread]
  dsimp only
  rw [hformat, hload]

theorem rendersAs_iff {d : Dialect} {text : String} :
    RendersAs FileTree.disk tree "/home/desk/decl.toml" (some d) text ↔
      Console.file.render d = .ok text := by
  simp only [RendersAs, manifest_tree, Except.ok.injEq, exists_eq_left', chosenDialect, Option.some_or,
    Option.getD_some]

theorem file_hasFunction : Console.file.HasFunction :=
  .inr ⟨Console.space, List.mem_singleton.mpr rfl, by decide⟩

/-- A target that is given from the root, in directories that are not there yet. -/
theorem accepts_lua : Accepts FileTree.disk tree (some "/srv/types/globals.lua") :=
  (accepts_tree_iff "").mpr ⟨_, rfl⟩

/-- A target in the working directory, where a file is. -/
theorem accepts_typeScript : Accepts FileTree.disk tree (some "globals.d.ts") :=
  (accepts_tree_iff "").mpr ⟨_, rfl⟩

/--
The check passes and warns of TypeScript. As Lua the manifest is written to a new file; as TypeScript
it is not written, and the file that was there stays.
-/
theorem check_predicts_render_desk :
    FileTree.disk.Lawful ∧ Accepts FileTree.disk tree (some "/srv/types/globals.lua") ∧
      Accepts FileTree.disk tree (some "globals.d.ts") ∧
      ∃ checked, onDisk FileTree.disk tree ["check", "/home/desk/decl.toml"] = (checked, tree) ∧
        checked.exit = 0 ∧ ¬ checked.Warns .lua ∧ checked.Warns .typeScript ∧
        (∃ rendered left text,
          onDisk FileTree.disk tree
            ["render", "/home/desk/decl.toml", "-d", "lua", "--output=/srv/types/globals.lua"] =
              (rendered, left) ∧
          rendered.exit = 0 ∧ rendered.stdout = "" ∧ Console.file.render .lua = .ok text ∧
          textAt FileTree.disk left "/srv/types/globals.lua" = .ok text) ∧
        ∃ rendered,
          onDisk FileTree.disk tree
            ["render", "/home/desk/decl.toml", "--dialect", "TS", "-o", "globals.d.ts"] =
              (rendered, tree) ∧
          rendered.exit = 1 ∧ rendered.stdout = "" := by
  have hc : parse ["check", "/home/desk/decl.toml"] = some (.check "/home/desk/decl.toml") := by
    decide +kernel
  have hlua : parse
      ["render", "/home/desk/decl.toml", "-d", "lua", "--output=/srv/types/globals.lua"] =
        some (.render "/home/desk/decl.toml" (some .lua) (some "/srv/types/globals.lua")) := by
    decide +kernel
  have hts : parse
      ["render", "/home/desk/decl.toml", "--dialect", "TS", "-o", "globals.d.ts"] =
        some (.render "/home/desk/decl.toml" (some .typeScript) (some "globals.d.ts")) := by
    decide +kernel
  refine ⟨FileTree.disk_lawful, accepts_lua, accepts_typeScript, ?_⟩
  obtain ⟨rendered, left, checked, hrun, hcheck, hpredicts, hloads, hdelivered, -⟩ :=
    check_predicts_render FileTree.disk_lawful hlua hc accepts_lua
  obtain ⟨hexit, hnoLua, hwarns⟩ := hloads Console.file manifest_tree
  have hzero : rendered.exit = 0 := hpredicts.mpr ⟨hexit, hnoLua⟩
  obtain ⟨text, htext, hout, hfile⟩ := hdelivered hzero
  obtain ⟨failed, left', _, hrun', -, -, -, -, hfailed⟩ :=
    check_predicts_render FileTree.disk_lawful hts hc accepts_typeScript
  have hno : ¬ ∃ text, RendersAs FileTree.disk tree "/home/desk/decl.toml" (some .typeScript) text := by
    rw [exists_congr fun _ => rendersAs_iff, Console.file.exists_render_iff]
    simp [file_hasFunction]
  obtain ⟨h₁, h₂, rfl⟩ := hfailed hno
  exact ⟨checked, hcheck, hexit, hnoLua, hwarns.mpr file_hasFunction,
    ⟨rendered, left, text, hrun, hzero, hout, rendersAs_iff.mp htext, hfile⟩,
    failed, hrun', h₁, h₂⟩

end Desk

end CommandLine
end Ambient
