import Ambient.Manifest.Json

/-!
Blanks, comments and strings of TOML. A reader answers what it read and the text behind it; a string
with a fault has an end too.
-/
namespace Ambient.Manifest.Toml

/-- What a piece of the text says, or the fault in it, and the text behind the piece. -/
abbrev Reading (α : Type) := Except Problem α × List Char

def orMalformed : Option α → Except Problem α
  | some x => .ok x
  | none => .error .malformed

def isSpace (c : Char) : Bool := c = ' ' || c = '\t'

def skipSpace (cs : List Char) : List Char := cs.dropWhile isSpace

/-- Characters that strings and comments may hold as they stand: controls other than a tab may not. -/
def isPlain (c : Char) : Bool := c = '\t' || (0x20 ≤ c.toNat && c.toNat ≠ 0x7F)

/-- Skips blanks, line breaks and comments; in a comment, up to its line break. -/
def skipLines (inComment : Bool) : List Char → Option (List Char)
  | [] => some []
  | '\r' :: '\n' :: cs => skipLines false cs
  | c :: cs =>
    if c = '\n' then skipLines false cs
    else if inComment then if isPlain c then skipLines true cs else none
    else if isSpace c then skipLines false cs
    else if c = '#' then skipLines true cs
    else some (c :: cs)

/-- The text behind a line break. -/
def lineBreak? : List Char → Option (List Char)
  | '\n' :: cs => some cs
  | '\r' :: '\n' :: cs => some cs
  | _ => none

/-- A line break at the very start of a text is not part of it. -/
def dropLineBreak (cs : List Char) : List Char := (lineBreak? cs).getD cs

/-! Escapes. -/

/-- A character by number, written with so many hexadecimal digits. -/
def byNumber (digits : Nat) (cs : List Char) : Option (Char × List Char) := do
  if (cs.take digits).length < digits then none
  else
    let n ← Json.hexNumber? (cs.take digits)
    if n.isValidChar then some (Char.ofNat n, cs.drop digits) else none

/-- The character that an escape denotes, from behind the backslash. -/
def escaped : List Char → Option (Char × List Char)
  | [] => none
  | c :: cs =>
    if c = '"' || c = '\\' then some (c, cs)
    else if c = 'b' then some ('\x08', cs)
    else if c = 'e' then some ('\x1b', cs)
    else if c = 'f' then some ('\x0c', cs)
    else if c = 'n' then some ('\n', cs)
    else if c = 'r' then some ('\r', cs)
    else if c = 't' then some ('\t', cs)
    else if c = 'x' then byNumber 2 cs
    else if c = 'u' then byNumber 4 cs
    else if c = 'U' then byNumber 8 cs
    else none

def consChar (c : Char) (rest : Option (List Char × List Char)) :
    Option (List Char × List Char) :=
  rest.map fun p => (c :: p.1, p.2)

/-! Strings on one line, from behind the opening quote. -/

def basicBody : Nat → List Char → Option (List Char × List Char)
  | 0, _ | _ + 1, [] => none
  | fuel + 1, c :: cs =>
    if c = '"' then some ([], cs)
    else if c = '\\' then do
      let (x, rest) ← escaped cs
      consChar x (basicBody fuel rest)
    else if isPlain c then consChar c (basicBody fuel cs)
    else none

def literalBody : List Char → Option (List Char × List Char)
  | [] => none
  | c :: cs =>
    if c = '\'' then some ([], cs)
    else if isPlain c then consChar c (literalBody cs)
    else none

/-! Strings on several lines, from behind the opening quotes. -/

/-- Three quotes end a string; up to two more in front of them are part of it. -/
def closingQuotes? (quote : Char) (cs : List Char) : Option (List Char × List Char) :=
  let n := (cs.takeWhile (· = quote)).length
  if n < 3 then none
  else
    let extra := min (n - 3) 2
    some (List.replicate extra quote, cs.drop (extra + 3))

/-- A backslash at the end of a line: blanks and line breaks up to the next other character are skipped. -/
def continuation? (cs : List Char) : Option (List Char) :=
  (lineBreak? (skipSpace cs)).map fun rest => go rest
where
  go : List Char → List Char
    | '\r' :: '\n' :: cs => go cs
    | c :: cs => if c = '\n' || isSpace c then go cs else c :: cs
    | [] => []

def multilineBasic : Nat → List Char → Option (List Char × List Char)
  | 0, _ | _ + 1, [] => none
  | fuel + 1, c :: cs =>
    match closingQuotes? '"' (c :: cs) with
    | some result => some result
    | none =>
      if c = '\\' then
        match continuation? cs with
        | some rest => multilineBasic fuel rest
        | none => do
          let (x, rest) ← escaped cs
          consChar x (multilineBasic fuel rest)
      else if isPlain c || c = '\n' || (c = '\r' && (lineBreak? (c :: cs)).isSome) then
        consChar c (multilineBasic fuel cs)
      else none

def multilineLiteral : Nat → List Char → Option (List Char × List Char)
  | 0, _ | _ + 1, [] => none
  | fuel + 1, c :: cs =>
    match closingQuotes? '\'' (c :: cs) with
    | some result => some result
    | none =>
      if isPlain c || c = '\n' || (c = '\r' && (lineBreak? (c :: cs)).isSome) then
        consChar c (multilineLiteral fuel cs)
      else none

/-! Strings with a fault, from behind the opening quotes. -/

/-- The text behind the closing quote, or the end of the line. -/
def skipBasic : List Char → List Char
  | [] => []
  | '"' :: cs => cs
  | '\\' :: '"' :: cs | '\\' :: '\\' :: cs => skipBasic cs
  | '\n' :: cs => '\n' :: cs
  | _ :: cs => skipBasic cs

/-- The text behind the closing quote, or the end of the line. -/
def skipLiteral : List Char → List Char
  | [] => []
  | '\'' :: cs => cs
  | '\n' :: cs => '\n' :: cs
  | _ :: cs => skipLiteral cs

/-- The text behind the closing quotes. -/
def skipMultiline (quote : Char) (escapes : Bool) : List Char → List Char
  | [] => []
  | c :: cs =>
    match closingQuotes? quote (c :: cs) with
    | some (_, rest) => rest
    | none =>
      match escapes && c = '\\', cs with
      | true, _ :: cs => skipMultiline quote escapes cs
      | _, cs => skipMultiline quote escapes cs

/-! Strings. -/

/-- What was read, or a fault and the text behind it. -/
def stringOr (r : Option (List Char × List Char)) (after : List Char) : Reading String :=
  match r with
  | some (cs, rest) => (.ok (String.ofList cs), rest)
  | none => (.error .malformed, after)

/-- A string on one line. -/
def lineString? : List Char → Option (Reading String)
  | '"' :: cs => some (stringOr (basicBody (cs.length + 1) cs) (skipBasic cs))
  | '\'' :: cs => some (stringOr (literalBody cs) (skipLiteral cs))
  | _ => none

/-- A string of any form; three quotes open one over several lines. -/
def string? : List Char → Option (Reading String)
  | '"' :: '"' :: '"' :: cs =>
    some (stringOr (multilineBasic (cs.length + 1) (dropLineBreak cs)) (skipMultiline '"' true cs))
  | '\'' :: '\'' :: '\'' :: cs =>
    some (stringOr (multilineLiteral (cs.length + 1) (dropLineBreak cs))
      (skipMultiline '\'' false cs))
  | cs => lineString? cs

end Ambient.Manifest.Toml
