import Ambient.Binary64.Numeral
import Ambient.Manifest.Toml.Text

/-! Numbers, booleans and datetimes of TOML: values that are words without quotes. -/
namespace Ambient.Manifest.Toml

/-! Words. -/

def isQuote (c : Char) : Bool := c = '"' || c = '\''

/-- All characters but blanks, line breaks and the marks between values and keys. -/
def isWordChar (c : Char) : Bool :=
  c ∉ ['=', ',', '[', ']', '{', '}', '#', ' ', '\t', '\r', '\n']

/-- Whether more of a word follows the blanks here. -/
def goesOn (cs : List Char) : Bool := (skipSpace cs).head?.any fun c => isWordChar c && !isQuote c

/-- A word, which may have blanks inside, and the text behind it. -/
def takeWord : List Char → List Char × List Char
  | [] => ([], [])
  | c :: cs =>
    if isWordChar c || (isSpace c && goesOn cs) then
      let (w, rest) := takeWord cs
      (c :: w, rest)
    else ([], c :: cs)

/-! Numbers. -/

/--
The text without its underscores, each of which has to stand between two digits; `behind` says
whether a digit stands in front.
-/
def dropUnderscores? (isDigit : Char → Bool) : Bool → List Char → Option (List Char)
  | _, [] => some []
  | behind, '_' :: cs =>
    if behind && cs.head?.any isDigit then dropUnderscores? isDigit false cs else none
  | _, c :: cs => (dropUnderscores? isDigit (isDigit c) cs).map (c :: ·)

def isHexDigit (c : Char) : Bool := (Json.hexValue? c).isSome

/-- An integer, if 128 bits hold it with or without a sign. -/
def integerNode (n : Int) : Node :=
  if -wideLimit ≤ n && n < 2 * wideLimit then .integer n else .noInteger

/-- An integer in the base that its first characters name; it may lack digits. -/
def based? (base : Nat) (isDigit : Char → Bool) (cs : List Char) : Option Node := do
  let ds ← dropUnderscores? isDigit false cs
  if ds.isEmpty then some .noInteger
  else if ds.all isDigit then
    some (integerNode (ds.foldl (fun n c => base * n + (Json.hexValue? c).getD 0) 0 : Nat))
  else none

/-- Whether more follows a leading zero. -/
def hasLeadingZero : List Char → Bool
  | '0' :: _ :: _ => true
  | _ => false

/--
A decimal integer behind its sign. Only the digits in front of the first underscore have to be
decimal: others make an integer without a value.
-/
def integer? (negative : Bool) (cs : List Char) : Option Node :=
  let rest := cs.dropWhile Char.isDigit
  if cs.isEmpty || hasLeadingZero cs || rest.head?.any (· ≠ '_') || ' ' ∈ rest then none
  else (dropUnderscores? isHexDigit false cs).map fun ds =>
    let n : Int := Binary64.digitsValue ds
    if ds.all Char.isDigit then integerNode (if negative then -n else n) else .noInteger

def isExponentMark (c : Char) : Bool := c = 'e' || c = 'E'

/-- A number within the range of floats, or none. -/
def floatNode : Binary64 → Node
  | .infinite _ => .hugeFloat
  | x => .float x

/-- A float behind its sign: a whole part without a leading zero, and a fraction, an exponent or both. -/
def float? (negative : Bool) (cs : List Char) : Option Node := do
  let ds ← dropUnderscores? Char.isDigit false cs
  let whole := ds.takeWhile Char.isDigit
  let fraction := (ds.dropWhile Char.isDigit).takeWhile fun c => !isExponentMark c
  if whole.isEmpty || fraction = ['.'] || hasLeadingZero whole then none
  else (Binary64.magnitude? negative ds).map floatNode

/-- A decimal number behind its sign. -/
def decimal? (negative : Bool) (cs : List Char) : Option Node :=
  if cs = "inf".toList then some (.float (.infinite negative))
  else if cs = "nan".toList then some (.float .nan)
  else if cs.any fun c => c = '.' || isExponentMark c then float? negative cs
  else integer? negative cs

def number? : List Char → Option Node
  | '0' :: 'x' :: cs => based? 16 isHexDigit cs
  | '0' :: 'o' :: cs => based? 8 (fun c => '0' ≤ c && c ≤ '7') cs
  | '0' :: 'b' :: cs => based? 2 (fun c => c = '0' || c = '1') cs
  | '+' :: cs => decimal? false cs
  | '-' :: cs => decimal? true cs
  | cs => decimal? false cs

/-! Datetimes. -/

/-- Two digits as a number. -/
def twoDigits? : List Char → Option (Nat × List Char)
  | a :: b :: cs =>
    if a.isDigit && b.isDigit then some (10 * Binary64.digitValue a + Binary64.digitValue b, cs)
    else none
  | _ => none

/-- Skips one of the given characters. -/
def skipOne (allowed : List Char) : List Char → Option (List Char)
  | c :: cs => if c ∈ allowed then some cs else none
  | [] => none

def isLeapYear (year : Nat) : Bool := year % 4 = 0 && (year % 100 ≠ 0 || year % 400 = 0)

def daysIn (year month : Nat) : Nat :=
  if month = 2 then if isLeapYear year then 29 else 28
  else if month = 4 || month = 6 || month = 9 || month = 11 then 30
  else 31

/-- A day of the calendar, as `YYYY-MM-DD`; answers the text behind it. -/
def date? (cs : List Char) : Option (List Char) := do
  let (century, cs) ← twoDigits? cs
  let (year, cs) ← twoDigits? cs
  let (month, cs) ← twoDigits? (← skipOne ['-'] cs)
  let (day, cs) ← twoDigits? (← skipOne ['-'] cs)
  if 1 ≤ month && month ≤ 12 && 1 ≤ day && day ≤ daysIn (100 * century + year) month then some cs
  else none

/-- Skips a point and the digits behind it, if a point is there. -/
def fraction? : List Char → Option (List Char)
  | '.' :: cs => if (cs.takeWhile Char.isDigit).isEmpty then none else some (cs.dropWhile Char.isDigit)
  | cs => some cs

/-- Seconds up to 60, for leap seconds, with an optional fraction; they may be left out. -/
def seconds? : List Char → Option (List Char)
  | ':' :: cs => do
    let (second, cs) ← twoDigits? cs
    if second ≤ 60 then fraction? cs else none
  | cs => some cs

/-- Hours and minutes. -/
def clock? (cs : List Char) : Option (List Char) := do
  let (hour, cs) ← twoDigits? cs
  let (minute, cs) ← twoDigits? (← skipOne [':'] cs)
  if hour ≤ 23 && minute ≤ 59 then some cs else none

def time? (cs : List Char) : Option (List Char) := clock? cs >>= seconds?

/-- The offset of a time, or the end of the text. -/
def offset? : List Char → Option (List Char)
  | [] => some []
  | 'Z' :: cs | 'z' :: cs => some cs
  | '+' :: cs | '-' :: cs => clock? cs
  | _ => none

/-- Whether a word is a date, a time, or both with or without an offset. -/
def isDatetime (cs : List Char) : Bool :=
  match date? cs with
  | none => time? cs = some []
  | some [] => true
  | some rest => (skipOne ['T', 't', ' '] rest >>= time? >>= offset?) = some []

/-- The value that a word denotes. -/
def scalar? (w : List Char) : Option Node :=
  if w = "true".toList then some (.boolean true)
  else if w = "false".toList then some (.boolean false)
  else if isDatetime w then some .datetime
  else number? w

end Ambient.Manifest.Toml
