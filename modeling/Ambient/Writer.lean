import Ambient.Doc

/-! A writer of indented lines, and the steps that drive it. -/
namespace Ambient

structure Writer where
  /-- Spaces to a level. -/
  width : Nat
  level : Nat
  text : String
deriving DecidableEq, Repr

namespace Writer

inductive Step
  | line (s : String)
  /-- Every line of a text; empty ones stay empty. -/
  | lines (s : String)
  | blank
  | indent
  | dedent
  | doc (dialect : Dialect) (text : String)
  /-- A description, unless it is empty. -/
  | docIf (dialect : Dialect) (text : String)
deriving DecidableEq, Repr

def spaces (n : Nat) : String := String.ofList (List.replicate n ' ')

def writtenLine (margin line : String) : String := margin ++ line ++ "\n"

def writtenLines (margin : String) (ls : List String) : String :=
  String.join (ls.map (writtenLine margin))

/-- A line of a larger text: an empty one gets no margin. -/
def reindented (margin line : String) : String :=
  if line.isEmpty then "\n" else writtenLine margin line

namespace Step

/-- What a step writes behind the given margin. -/
def written (margin : String) : Step → String
  | .line s => writtenLine margin s
  | .lines s => String.join ((Text.lines s).map (reindented margin))
  | .blank => "\n"
  | .indent | .dedent => ""
  | .doc d s => writtenLines margin (Doc.comment d s)
  | .docIf d s => if s.isEmpty then "" else writtenLines margin (Doc.comment d s)

/-- The level after a step; level zero is the outermost. -/
def leveled : Step → Nat → Nat
  | .indent, n => n + 1
  | .dedent, n => n - 1
  | _, n => n

end Step

def margin (w : Writer) : String := spaces (w.level * w.width)

def step (w : Writer) (s : Step) : Writer :=
  { w with level := s.leveled w.level, text := w.text ++ s.written w.margin }

def run (w : Writer) (steps : List Step) : Writer := steps.foldl step w

/-- A writer with nothing written yet. -/
def empty (width : Nat) : Writer := ⟨width, 0, ""⟩

/-- The text without its last line break. -/
def dropFinalBreak (s : String) : String :=
  if s.toList.getLast? = some '\n' then String.ofList s.toList.dropLast else s

/-- What has been written, without the last line break: those who join texts separate them. -/
def build (w : Writer) : String := dropFinalBreak w.text

/-- The text of some steps in a dialect's own indentation. -/
def render (d : Dialect) (steps : List Step) : String := ((empty d.indent).run steps).build

end Writer
end Ambient
