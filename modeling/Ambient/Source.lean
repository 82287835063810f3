import Ambient.Text.Alphanumeric
import Ambient.Text.Blank
import Ambient.Text.Lines

/-! Places in a source text, counted in bytes of UTF-8: where names are written, and lines. -/
namespace Ambient

structure Span where
  offset : Nat
  length : Nat
deriving DecidableEq, Repr

namespace Source

/-- Characters that continue a longer key to the left. -/
def isKeyPart (c : Char) : Bool := Text.isAlphanumeric c || c = '_' || c = '-'

/-- Whether a text, read backwards from its end, ends in the word `name` with no longer key around it. -/
def endsInName : List Char → Bool
  | 'e' :: 'm' :: 'a' :: 'n' :: rest => match rest with
    | [] => true
    | c :: _ => !isKeyPart c
  | _ => false

/-- The text, read backwards, without a quote that closes a key. -/
def dropQuote : List Char → List Char
  | '"' :: rest => rest
  | rest => rest

/-- Whether the text before a value, read backwards, ends in the key `name` and its `=` or `:`. -/
def followsNameKey (before : List Char) : Bool :=
  match before.dropWhile Text.isBlank with
  | c :: rest => (c = '=' || c = ':') && endsInName (dropQuote (rest.dropWhile Text.isBlank))
  | [] => false

/--
The byte offsets at which the pattern stands as the value of a `name` key. Occurrences are searched
from the left without overlap: `busy` characters still belong to the last one. The text before is
kept backwards.
-/
def entriesFrom (pattern : List Char) (before : List Char) (offset busy : Nat) : List Char → List Nat
  | [] => []
  | c :: cs =>
    match busy with
    | busy + 1 => entriesFrom pattern (c :: before) (offset + c.utf8Size) busy cs
    | 0 =>
      if pattern.isPrefixOf (c :: cs) then
        let rest := entriesFrom pattern (c :: before) (offset + c.utf8Size) (pattern.length - 1) cs
        if followsNameKey before then offset :: rest else rest
      else entriesFrom pattern (c :: before) (offset + c.utf8Size) 0 cs

/-- Where the name stands in double quotes as the value of a `name` key. -/
def nameEntries (source name : String) : List Nat :=
  entriesFrom ('"' :: name.toList ++ ['"']) [] 0 0 source.toList

/-- The characters of a quoted name at an offset; of an empty one, its quotes. -/
def spanOfEntry (name : String) (offset : Nat) : Span :=
  if name.isEmpty then ⟨offset, 2⟩ else ⟨offset + 1, name.utf8ByteSize⟩

/-- Behind the first entry of the owner, or at the start of the text. -/
def searchStart (source : String) (owner : Option String) : Nat :=
  match owner with
  | some o => match nameEntries source o with
    | first :: _ => first + 1
    | [] => 0
  | none => 0

/--
The span of a name: of its entries behind the owner's the one after `skip` others, or the first if
there are not so many.
-/
def nameSpan (source name : String) (owner : Option String) (skip : Nat) : Option Span :=
  let entries := (nameEntries source name).filter (searchStart source owner ≤ ·)
  (entries[skip]?.or entries.head?).map (spanOfEntry name)

/-- The byte offset of a line and column, both counted from one; columns past the end stay there. -/
def offsetAt (source : String) (line column : Nat) : Option Nat :=
  if line = 0 then none
  else
    let before := ((Text.piecesWithBreak source.toList).take (line - 1)).flatten
    some (min (Text.byteSize before + (column - 1)) source.utf8ByteSize)

end Source
end Ambient
