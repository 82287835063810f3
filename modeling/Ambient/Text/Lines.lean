/-! Cutting text into pieces and lines. -/
namespace Ambient.Text

/-- The pieces between the characters that satisfy `cut`: one more than there are such characters. -/
def splitWhere (cut : Char → Bool) : List Char → List (List Char)
  | [] => [[]]
  | c :: cs =>
    if cut c then [] :: splitWhere cut cs
    else match splitWhere cut cs with
      | [] => [[c]]
      | piece :: rest => (c :: piece) :: rest

theorem splitWhere_ne_nil (cut : Char → Bool) (s : List Char) : splitWhere cut s ≠ [] := by
  cases s with
  | nil => simp [splitWhere]
  | cons c cs =>
    simp only [splitWhere]
    split
    · simp
    · split <;> simp

/-- A line without the carriage return that belongs to its line break. -/
def chomp (line : List Char) : List Char :=
  if line.getLast? = some '\r' then line.dropLast else line

/-- Lines from the pieces between line feeds: the last piece is a line unless it is empty. -/
def linesOfPieces : List (List Char) → List (List Char)
  | [] => []
  | [last] => if last.isEmpty then [] else [last]
  | piece :: rest => chomp piece :: linesOfPieces rest

/-- Lines end at a line feed or at a carriage return and a line feed, or with the text. -/
def lineList (s : List Char) : List (List Char) := linesOfPieces (splitWhere (· == '\n') s)

def lines (s : String) : List String := (lineList s.toList).map String.ofList

theorem lines_empty : lines "" = [] := by simp [lines, lineList, splitWhere, linesOfPieces]

/-- The pieces that end behind a line feed, and what follows the last one if anything does. -/
def piecesWithBreak : List Char → List (List Char)
  | [] => []
  | c :: cs =>
    if c = '\n' then ['\n'] :: piecesWithBreak cs
    else match piecesWithBreak cs with
      | [] => [[c]]
      | piece :: rest => (c :: piece) :: rest

/-- Bytes that the characters take in UTF-8. -/
def byteSize : List Char → Nat
  | [] => 0
  | c :: cs => c.utf8Size + byteSize cs

theorem byteSize_append (s t : List Char) : byteSize (s ++ t) = byteSize s + byteSize t := by
  induction s with
  | nil => simp [byteSize]
  | cons c cs ih => simp [byteSize, ih, Nat.add_assoc]

end Ambient.Text
