import Ambient.Dialect
import Ambient.Text.Lines

/-! Descriptions, as comments before a declaration or on one line behind it. -/
namespace Ambient.Doc

def isBreak (c : Char) : Bool := c = '\n' || c = '\r'

/-- The trimmed lines that are not blank, joined by a space; both break characters end a line. -/
def flattenChars (text : List Char) : List Char :=
  [' '].intercalate (((Text.splitWhere isBreak text).map Text.trim).filter (!·.isEmpty))

def flatten (text : String) : String := String.ofList (flattenChars text.toList)

/-- The text with every `*/` broken by a backslash, so that it cannot end a comment. -/
def shieldChars : List Char → List Char
  | '*' :: '/' :: cs => '*' :: '\\' :: '/' :: shieldChars cs
  | c :: cs => c :: shieldChars cs
  | [] => []

def shield (s : String) : String := String.ofList (shieldChars s.toList)

/-- The lines of a text, of which an empty text has one. -/
def linesOrEmpty (text : String) : List String :=
  match Text.lines text with
  | [] => [""]
  | ls => ls

def starred (line : String) : String := if line.isEmpty then " *" else " * " ++ line

/-- The lines of the comment that carries a text. -/
def comment (d : Dialect) (text : String) : List String :=
  match d, linesOrEmpty text with
  | .lua, ls => ls.map ("---" ++ ·)
  | .typeScript, [l] => ["/** " ++ shield l ++ " */"]
  | .typeScript, ls => "/**" :: ls.map (starred ∘ shield) ++ [" */"]

end Ambient.Doc
