import Ambient.Edit

/-! Commands on a workspace and their answers. -/
namespace Ambient.Workspace

inductive Command
  /-- Puts a declaration into a new cell. -/
  | make (handle : String) (content : Cell)
  | makeGroup (handle name : String) (members : List String)
  /-- A second handle on a cell. -/
  | alias (handle target : String)
  /-- A new cell with the same content; a copied namespace has the same members. -/
  | clone (handle target : String)
  | get (target : String)
  | equal (a b : String)
  | same (a b : String)
  | render (target dialect : String) (scope : Scope)
  | paramList (target dialect : String)
  | paramAnnotations (target dialect : String)
  | returnAnnotations (target dialect : String)
  | validate (target : String)
  | edit (target : String) (e : Edit)
  | add (target member : String)
  /-- Runs commands while the target is held for a change. -/
  | borrowed (target : String) (steps : List Command)

/-- A declaration with all that others can see of it. -/
inductive Snapshot
  | member (m : Member)
  | alias (a : Alias)
  | space (name : String) (members : List Sight)

inductive Answer
  | snapshot (s : Snapshot)
  | flag (b : Bool)
  | text (s : String)
  | done
  | failed (e : Error)
  /-- The command does not fit the workspace. -/
  | refused
  | answers (as : List Answer)

def Answer.ofText : Except Error String → Answer
  | .ok s => .text s
  | .error e => .failed e

def Answer.ofUnit : Except Error Unit → Answer
  | .ok () => .done
  | .error e => .failed e

def snapshot (w : Workspace) : Cell → Snapshot
  | .member m => .member m
  | .alias a => .alias a
  | .group g => .space g.name (w.sights g)

/-- A handle's cell and what it holds. -/
def find? (w : Workspace) (handle : String) : Option (Nat × Cell) := do
  let r ← w.resolve? handle
  return (r, ← w.cell? r)

/-- The answer about a handle's cell. -/
def ask (w : Workspace) (handle : String) (answer : Cell → Answer) : Answer :=
  match w.find? handle with
  | some (_, c) => answer c
  | none => .refused

/-- Changes a handle's cell, if the change fits, and shows it. -/
def change (w : Workspace) (handle : String) (f : Cell → Option Cell) : Workspace × Answer :=
  match w.find? handle with
  | some (r, c) => match f c with
    | some c => let w := w.set r c; (w, .snapshot (w.snapshot c))
    | none => (w, .refused)
  | none => (w, .refused)

/-- Puts a declaration into a new cell under a handle, and shows it. -/
def place (w : Workspace) (handle : String) (c : Cell) : Workspace × Answer :=
  let (w, r) := w.insert c
  let w := w.bind handle r
  (w, .snapshot (w.snapshot c))

/-- Equality of two declarations of one kind. -/
def equalCells : Cell → Cell → Answer
  | .member (.func f), .member (.func g) => .flag (f.equal g)
  | .member (.cls c), .member (.cls d) => .flag (c = d)
  | .member (.enum e), .member (.enum f) => .flag (e.equal f)
  | .member (.var v), .member (.var w) => .flag (v.equal w)
  | .alias a, .alias b => .flag (a = b)
  | _, _ => .refused

/-- The answer in a dialect as a person types it, about a function. -/
def askFunction (w : Workspace) (target dialect : String)
    (text : Function → Dialect → Except Error String) : Answer :=
  w.ask target fun
    | .member (.func f) => .ofText (Dialect.read dialect >>= text f)
    | _ => .refused

def addMember (member : Nat) : Cell → Option Cell
  | .group g => some (.group { g with members := g.members ++ [member] })
  | _ => none

mutual

def Command.run (w : Workspace) : Command → Workspace × Answer
  | .make handle c => w.place handle c
  | .makeGroup handle name members =>
    match members.mapM w.resolve? with
    | some refs => w.place handle (.group ⟨name, refs⟩)
    | none => (w, .refused)
  | .alias handle target =>
    match w.find? target with
    | some (r, c) => let w := w.bind handle r; (w, .snapshot (w.snapshot c))
    | none => (w, .refused)
  | .clone handle target =>
    match w.find? target with
    | some (_, c) => w.place handle c
    | none => (w, .refused)
  | .get target => (w, w.ask target fun c => .snapshot (w.snapshot c))
  | .equal a b => (w, w.ask a fun c => w.ask b (equalCells c))
  | .same a b =>
    (w, match w.resolve? a, w.resolve? b with
      | some r, some s => .flag (r = s)
      | _, _ => .refused)
  | .render target dialect scope =>
    (w, w.ask target fun c => .ofText do w.renderCell (← Dialect.read dialect) scope c)
  | .paramList target dialect => (w, w.askFunction target dialect Function.paramList)
  | .paramAnnotations target dialect => (w, w.askFunction target dialect Function.paramAnnotations)
  | .returnAnnotations target dialect => (w, w.askFunction target dialect Function.returnAnnotations)
  | .validate target => (w, w.ask target fun c => .ofUnit (w.validateCell c))
  | .edit target e => w.change target e.apply
  | .add target member =>
    match w.resolve? member with
    | some r => w.change target (addMember r)
    | none => (w, .refused)
  | .borrowed target steps =>
    match w.resolve? target with
    | some r =>
      let (w, as) := runAll (w.hold r) steps
      (w.release r, .answers as)
    | none => (w, .refused)

def runAll (w : Workspace) : List Command → Workspace × List Answer
  | [] => (w, [])
  | c :: cs =>
    let (w, a) := c.run w
    let (w, as) := runAll w cs
    (w, a :: as)

end

end Ambient.Workspace
