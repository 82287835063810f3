import Ambient.FileTree
import Ambient.Manifest.Load

/-! The command line: what its arguments ask for, and what the program does about it. -/
namespace Ambient.CommandLine

inductive Shell
  | bash
  | elvish
  | fish
  | powerShell
  | zsh
deriving DecidableEq, Repr

def Shell.ofName? (name : String) : Option Shell :=
  if name = "bash" then some .bash
  else if name = "elvish" then some .elvish
  else if name = "fish" then some .fish
  else if name = "powershell" then some .powerShell
  else if name = "zsh" then some .zsh
  else none

inductive Request
  | version
  | help
  | render (file : String) (dialect : Option Dialect) (output : Option String)
  | check (file : String)
  | completions (shell : Shell)
deriving DecidableEq

/-! Arguments. -/

/-- What an argument with one or two hyphens in front says. -/
inductive Flag
  | verbose
  | help
  | version
  /-- An option whose value is the next argument. -/
  | open (option : Char)
  | given (option : Char) (value : String)
  | unknown
deriving DecidableEq

/-- The options that take a value in a command, by letter and by word. -/
abbrev Options := List (Char × String)

/-- One letter of a group; an option takes what follows it in the group, less one `=`, as its value. -/
def ofLetters (options : Options) (hasVersion : Bool) : List Char → Flag
  | [] => .verbose
  | 'v' :: cs => ofLetters options hasVersion cs
  | 'h' :: _ => .help
  | c :: cs =>
    if c = 'V' && hasVersion then .version
    else if (options.lookup c).isNone then .unknown
    else match cs with
      | [] => .open c
      | '=' :: value => .given c (String.ofList value)
      | value => .given c (String.ofList value)

/-- A word, and a value behind `=` if there is one. -/
def ofWord (options : Options) (hasVersion : Bool) (cs : List Char) : Flag :=
  let word := String.ofList (cs.takeWhile (· ≠ '='))
  let value := cs.dropWhile (· ≠ '=')
  match options.find? (·.2 = word), value with
  | some (c, _), [] => .open c
  | some (c, _), _ :: value => .given c (String.ofList value)
  | none, _ :: _ => .unknown
  | none, [] =>
    if word = "verbose" then .verbose
    else if word = "help" then .help
    else if word = "version" && hasVersion then .version
    else .unknown

/-- Arguments that start with a hyphen are flags, other than the hyphen alone. -/
def flag? (options : Options) (hasVersion : Bool) (arg : String) : Option Flag :=
  match arg.toList with
  | '-' :: '-' :: cs => some (ofWord options hasVersion cs)
  | '-' :: c :: cs => some (ofLetters options hasVersion (c :: cs))
  | _ => none

/-- What a command has been given so far. -/
structure Given where
  operand : Option String := none
  values : List (Char × String) := []

namespace Given

/-- A command takes one operand. -/
def addOperand (g : Given) (arg : String) : Option Given :=
  if g.operand.isSome then none else some { g with operand := some arg }

/-- An option is given at most once. -/
def addValue (g : Given) (option : Char) (value : String) : Option Given :=
  if (g.values.lookup option).isSome then none else some { g with values := (option, value) :: g.values }

end Given

/-- A command with its arguments: what they look like, and whether a value may stand where it does. -/
structure Spec where
  options : Options
  acceptsOperand : String → Bool
  acceptsValue : Char → String → Bool

inductive Scan
  | given (g : Given)
  | help

def Spec.addOperand (s : Spec) (g : Given) (arg : String) : Option Given :=
  if s.acceptsOperand arg then g.addOperand arg else none

def Spec.addValue (s : Spec) (g : Given) (option : Char) (value : String) : Option Given :=
  if s.acceptsValue option value then g.addValue option value else none

/-- Reads the arguments of a command; the first one that does not fit ends the reading. -/
def Spec.scan (s : Spec) (g : Given) : List String → Option Scan
  | [] => some (.given g)
  | "--" :: args => (args.foldlM s.addOperand g).map .given
  | arg :: args =>
    match flag? s.options false arg with
    | none => do s.scan (← s.addOperand g arg) args
    | some .verbose => s.scan g args
    | some .help => some .help
    | some (.given c value) => do s.scan (← s.addValue g c value) args
    | some (.open c) =>
      match args with
      | value :: args =>
        if (flag? s.options false value).isSome then none
        else do s.scan (← s.addValue g c value) args
      | [] => none
    | some .version | some .unknown => none

def renderSpec : Spec where
  options := [('d', "dialect"), ('o', "output")]
  acceptsOperand file := !file.isEmpty
  acceptsValue option value := if option = 'd' then (Dialect.ofText? value).isSome else !value.isEmpty

def checkSpec : Spec where
  options := []
  acceptsOperand file := !file.isEmpty
  acceptsValue _ _ := false

def completionsSpec : Spec where
  options := []
  acceptsOperand shell := (Shell.ofName? shell).isSome
  acceptsValue _ _ := false

/-- The request that a command's arguments make; the operand cannot be left out. -/
def Spec.request (s : Spec) (args : List String) (make : String → Given → Option Request) :
    Option Request := do
  match ← s.scan {} args with
  | .help => some .help
  | .given g => make (← g.operand) g

def renderRequest (file : String) (g : Given) : Option Request :=
  some (.render file ((g.values.lookup 'd').bind Dialect.ofText?) (g.values.lookup 'o'))

/-- Help is about the program, or about one of its commands. -/
def helpRequest : List String → Option Request
  | [] => some .help
  | [name] => if name ∈ ["render", "check", "completions", "help"] then some .help else none
  | _ => none

def command? (name : String) (args : List String) : Option Request :=
  if name = "render" then renderSpec.request args renderRequest
  else if name = "check" then checkSpec.request args fun file _ => some (.check file)
  else if name = "completions" then
    completionsSpec.request args fun shell _ => (Shell.ofName? shell).map .completions
  else if name = "help" then helpRequest args
  else none

/-- The request that arguments make, if they follow the rules. -/
def parse : List String → Option Request
  | [] => none
  | arg :: args =>
    match flag? [] true arg with
    | none => command? arg args
    | some .verbose => parse args
    | some .help => some .help
    | some .version => some .version
    | some _ => none

/-! What the program does. -/

structure Outcome where
  exit : Nat
  stdout : String := ""
  warnings : List String := []
  /-- What went wrong, if anything did. -/
  message : Option String := none
deriving DecidableEq

def Outcome.usage : Outcome := { exit := 2, message := some "invalid arguments" }

def Outcome.failure (message : String) : Outcome := { exit := 1, message := some message }

/-- The dialects that a file cannot be written in, and why. -/
def unsupported (f : File) : List (Dialect × Error) :=
  Dialect.all.filterMap fun d =>
    match f.render d with
    | .ok _ => none
    | .error e => some (d, e)

def warning (d : Dialect) (e : Error) : String :=
  "warning: cannot render as " ++ d.name ++ ": " ++ e.message

def plural (n : Nat) (one many : String) : String := toString n ++ " " ++ if n = 1 then one else many

/-- A line for each kind of declaration that the file has. -/
def summary (f : File) : List String :=
  [(f.types.length, "type", "types"), (f.enums.length, "enum", "enums"),
    (f.classes.length, "class", "classes"), (f.vars.length, "variable", "variables"),
    (f.functions.length, "function", "functions"), (f.namespaces.length, "namespace", "namespaces")]
    |>.filter (0 < ·.1) |>.map fun (n, one, many) => plural n one many

def report (path : String) (f : File) : Outcome :=
  let unsupported := unsupported f
  { exit := 0
    warnings := unsupported.map fun (d, e) => warning d e
    stdout := (if unsupported.isEmpty then "" else "\n") ++ "✓ " ++ path ++ " is valid\n\n  " ++
      plural f.size "declaration" "declarations" ++ ":\n" ++
      String.join ((summary f).map fun l => "    " ++ l ++ "\n") }

variable {m : Type → Type} [Monad m]

/-- Loads the manifest at a path; its extension tells the format. -/
def openManifest (disk : Disk m) (path : String) : m (Except Manifest.LoadError File) := do
  match ← disk.read path with
  | .error e => return .error (.unreadable path e)
  | .ok source => return Manifest.load (.ofPath path) source path

/-- Makes the directory around a file, or says which one cannot be made. -/
def makeAround (disk : Disk m) (path : String) : m (Except String Unit) :=
  match Path.parent? path with
  | none => return .ok ()
  | some parent => do
    return (← disk.makeDirectories parent).mapError fun _ => "Failed to create " ++ parent

def writeText (disk : Disk m) (path text : String) : m (Except String Unit) := do
  return (← disk.write path text).mapError fun _ => "Failed to write " ++ path

/-- Writes a text to its target: the output of the program, or a file with the directory around it. -/
def deliver (disk : Disk m) (text : String) : Option String → m Outcome
  | none => return { exit := 0, stdout := text }
  | some path => do
    match ← makeAround disk path with
    | .error message => return .failure message
    | .ok () =>
      match ← writeText disk path text with
      | .error message => return .failure message
      | .ok () => return { exit := 0 }

/-- The flag picks the dialect, else the manifest does. -/
def runRender (disk : Disk m) (path : String) (dialect : Option Dialect) (output : Option String) :
    m Outcome := do
  match ← openManifest disk path with
  | .error e => return .failure e.message
  | .ok file =>
    match file.render (dialect.getD file.effectiveDialect) with
    | .error e => return .failure e.message
    | .ok text => deliver disk text output

def runCheck (disk : Disk m) (path : String) : m Outcome := do
  match ← openManifest disk path with
  | .error e => return .failure e.message
  | .ok file => return report path file

def versionText : String := "decl 0.1.0\n"

def Request.run (disk : Disk m) : Request → m Outcome
  | .version => return { exit := 0, stdout := versionText }
  | .help | .completions _ => return { exit := 0 }
  | .render path dialect output => runRender disk path dialect output
  | .check path => runCheck disk path

/-- The program. -/
def run (disk : Disk m) (args : List String) : m Outcome :=
  match parse args with
  | some request => request.run disk
  | none => return .usage

end Ambient.CommandLine
