import Ambient.Binary64.Numeral
import Ambient.Binary64.Scaled
import Ambient.Manifest.Node
import Ambient.Text.Lines

/-! Reading JSON into a tree. -/
namespace Ambient.Manifest.Json

/-- A node, and the text behind it unless reading stopped inside. -/
abbrev Partial := Node × Option (List Char)

def isSpace (c : Char) : Bool := c = ' ' || c = '\n' || c = '\t' || c = '\r'

def skipSpace (cs : List Char) : List Char := cs.dropWhile isSpace

/-- What is wrong when another character is wanted. -/
def faultAt : List Char → Problem
  | [] => .ended
  | _ => .malformed

/-! Literal names. -/

/-- Reads the rest of a literal name. -/
def word (began : Beginning) (value : Node) : List Char → List Char → Partial
  | [], cs => (value, some cs)
  | w :: ws, c :: cs => if c = w then word began value ws cs else (.broken began .malformed, none)
  | _ :: _, [] => (.broken began .ended, none)

/-! Numbers. -/

def maxWord : Nat := UInt64.size - 1

/-- The leading digits that keep the significand in a word, and what follows them. -/
def takeWord (significand taken : Nat) : List Char → Nat × Nat × List Char
  | [] => (significand, taken, [])
  | c :: cs =>
    let next := 10 * significand + Binary64.digitValue c
    if c.isDigit && next ≤ maxWord then takeWord next (taken + 1) cs
    else (significand, taken, c :: cs)

/-- The number of digits that lead the text, and what follows them. -/
def countDigits (cs : List Char) : Nat × List Char :=
  ((cs.takeWhile Char.isDigit).length, cs.dropWhile Char.isDigit)

def floatNode (negative : Bool) (significand : Nat) (exponent : Int) (rest : List Char) : Partial :=
  match Binary64.scaled? negative significand exponent with
  | some x => (.float x, some rest)
  | none => (.broken .scalar .malformed, none)

/-- The rest of a number from its exponent on; digits beyond a word have moved the point already. -/
def exponentPart (negative : Bool) (significand : Nat) (moved : Int) (cs : List Char) : Partial :=
  match cs with
  | c :: rest =>
    if c = 'e' || c = 'E' then
      let (down, digits) := Binary64.splitSign rest
      let (n, after) := countDigits digits
      if n = 0 then (.broken .scalar (faultAt digits), none)
      else
        let e : Int := Binary64.digitsValue (digits.take n)
        floatNode negative significand (if down then moved - e else moved + e) after
    else floatNode negative significand moved cs
  | [] => floatNode negative significand moved []

/-- The rest of a number behind its point. Digits that would take the significand past a word are dropped. -/
def fractionPart (negative : Bool) (significand : Nat) (moved : Int) (cs : List Char) : Partial :=
  let (significand, taken, rest) := takeWord significand 0 cs
  let (dropped, rest) := countDigits rest
  if taken + dropped = 0 then (.broken .scalar (faultAt rest), none)
  else exponentPart negative significand (moved - taken) rest

/-- An integer is kept if a word holds it; a negative zero is a float. -/
def integerNode (negative : Bool) (n : Nat) : Node :=
  if negative then
    if n = 0 || !isSignedWord (-n) then .float (Binary64.ofRatio true n 1) else .integer (-n)
  else .integer n

/-- The rest of a number behind the digits that a word holds. -/
def afterInteger (negative : Bool) (significand : Nat) (cs : List Char) : Partial :=
  let (dropped, rest) := countDigits cs
  match rest with
  | '.' :: fraction => fractionPart negative significand dropped fraction
  | 'e' :: _ | 'E' :: _ => exponentPart negative significand dropped rest
  | _ =>
    if dropped = 0 then (integerNode negative significand, some rest)
    else floatNode negative significand dropped rest

/-- A number without its sign; no digit may follow a leading zero. -/
def number (negative : Bool) : List Char → Partial
  | '0' :: cs =>
    if (cs.head?.map Char.isDigit).getD false then (.broken .scalar .malformed, none)
    else afterInteger negative 0 cs
  | c :: cs =>
    if c.isDigit then
      let (significand, _, rest) := takeWord 0 0 (c :: cs)
      afterInteger negative significand rest
    else (.broken .scalar .malformed, none)
  | [] => (.broken .scalar .ended, none)

/-! Strings. -/

def hexValue? (c : Char) : Option Nat :=
  if c.isDigit then some (c.toNat - '0'.toNat)
  else if 'a' ≤ c && c ≤ 'f' then some (c.toNat - 'a'.toNat + 10)
  else if 'A' ≤ c && c ≤ 'F' then some (c.toNat - 'A'.toNat + 10)
  else none

/-- The number that hexadecimal digits write. -/
def hexNumber? (cs : List Char) : Option Nat :=
  cs.foldlM (fun n c => (hexValue? c).map (16 * n + ·)) 0

/-- Four hexadecimal digits; a text of fewer than four bytes has ended. -/
def fourDigits (cs : List Char) : Except Problem (Nat × List Char) :=
  if Text.byteSize (cs.take 4) < 4 then .error .ended
  else match hexNumber? (cs.take 4) with
    | some n => .ok (n, cs.drop 4)
    | none => .error .malformed

def isHighSurrogate (n : Nat) : Bool := 0xD800 ≤ n && n ≤ 0xDBFF

def isLowSurrogate (n : Nat) : Bool := 0xDC00 ≤ n && n ≤ 0xDFFF

/-- A character by number; surrogates come in pairs, high before low. -/
def unicodeEscape (cs : List Char) : Except Problem (Char × List Char) := do
  let (n, rest) ← fourDigits cs
  if isLowSurrogate n then .error .malformed
  else if isHighSurrogate n then
    match rest with
    | '\\' :: 'u' :: more => do
      let (m, rest) ← fourDigits more
      if isLowSurrogate m then
        .ok (Char.ofNat (0x10000 + (n - 0xD800) * 0x400 + (m - 0xDC00)), rest)
      else .error .malformed
    | ['\\'] => .error .ended
    | _ => .error (faultAt rest)
  else .ok (Char.ofNat n, rest)

/-- The character that an escape denotes, from behind the backslash. -/
def escaped : List Char → Except Problem (Char × List Char)
  | [] => .error .ended
  | c :: cs =>
    if c = '"' || c = '\\' || c = '/' then .ok (c, cs)
    else if c = 'b' then .ok ('\x08', cs)
    else if c = 'f' then .ok ('\x0c', cs)
    else if c = 'n' then .ok ('\n', cs)
    else if c = 'r' then .ok ('\r', cs)
    else if c = 't' then .ok ('\t', cs)
    else if c = 'u' then unicodeEscape cs
    else .error .malformed

/-- The characters of a string up to its closing quote, from behind the opening one. -/
def stringBody : Nat → List Char → Except Problem (List Char × List Char)
  | 0, cs => .error (faultAt cs)
  | _ + 1, [] => .error .ended
  | fuel + 1, c :: cs =>
    if c = '"' then .ok ([], cs)
    else if c = '\\' then do
      let (x, rest) ← escaped cs
      let (xs, rest) ← stringBody fuel rest
      return (x :: xs, rest)
    else if c.toNat < 0x20 then .error .malformed
    else do
      let (xs, rest) ← stringBody fuel cs
      return (c :: xs, rest)

def stringFrom (cs : List Char) : Except Problem (String × List Char) :=
  (stringBody (cs.length + 1) cs).map fun p => (String.ofList p.1, p.2)

def stringNode (cs : List Char) : Partial :=
  match stringFrom cs with
  | .ok (s, rest) => (.text s, some rest)
  | .error p => (.broken .text p, none)

/-! Values. -/

/-- The items of a list or table in front of the rest, which only counts if reading got so far. -/
def consItem (item : Partial) (rest : List Char → List Node × Option Problem × Option (List Char)) :
    List Node × Option Problem × Option (List Char) :=
  match item with
  | (n, some cs) => let (ns, closing, after) := rest cs; (n :: ns, closing, after)
  | (n, none) => ([n], none, none)

def consEntry (key : Key) (value : Partial)
    (rest : List Char → List Entry × Option Problem × Option (List Char)) :
    List Entry × Option Problem × Option (List Char) :=
  match value with
  | (n, some cs) => let (es, closing, after) := rest cs; (.mk key n :: es, closing, after)
  | (n, none) => ([.mk key n], none, none)

def brokenItem (p : Problem) : Node := .broken .nothing p

/-- A container that may still hold `depth` more around its content, or the fault of one too many. -/
def nested (depth : Nat) (content : Nat → Partial) : Partial :=
  match depth with
  | 0 => (brokenItem .malformed, none)
  | depth + 1 => content depth

/-- Containers that may be open at once. -/
def maxDepth : Nat := 127

mutual

/-- A value; `depth` containers may be opened in it. -/
def value : Nat → Nat → List Char → Partial
  | 0, _, _ => (brokenItem .malformed, none)
  | fuel + 1, depth, text =>
    match skipSpace text with
    | [] => (brokenItem .ended, none)
    | c :: cs =>
      if c = 'n' then word .null .null "ull".toList cs
      else if c = 't' then word .scalar (.boolean true) "rue".toList cs
      else if c = 'f' then word .scalar (.boolean false) "alse".toList cs
      else if c = '-' then number true cs
      else if c.isDigit then number false (c :: cs)
      else if c = '"' then stringNode cs
      else if c = '[' then
        nested depth fun depth =>
          let (items, closing, after) := firstItem fuel depth (skipSpace cs)
          (.sequence items closing, after)
      else if c = '{' then
        nested depth fun depth =>
          let (entries, closing, after) := firstEntry fuel depth (skipSpace cs)
          (.table entries closing, after)
      else (brokenItem .malformed, none)

/-- The items from behind the opening bracket. -/
def firstItem : Nat → Nat → List Char → List Node × Option Problem × Option (List Char)
  | 0, _, _ => ([], some .malformed, none)
  | _ + 1, _, [] => ([], some .ended, none)
  | _ + 1, _, ']' :: cs => ([], none, some cs)
  | fuel + 1, depth, cs => consItem (value fuel depth cs) (moreItems fuel depth)

/-- The items from behind another item. -/
def moreItems : Nat → Nat → List Char → List Node × Option Problem × Option (List Char)
  | 0, _, _ => ([], some .malformed, none)
  | fuel + 1, depth, text =>
    match skipSpace text with
    | ']' :: cs => ([], none, some cs)
    | ',' :: cs =>
      match skipSpace cs with
      | [] => ([brokenItem .ended], none, none)
      | ']' :: _ => ([brokenItem .malformed], none, none)
      | cs => consItem (value fuel depth cs) (moreItems fuel depth)
    | cs => ([], some (faultAt cs), none)

/-- An entry whose key starts here. -/
def entry : Nat → Nat → Problem → List Char → List Entry × Option Problem × Option (List Char)
  | 0, _, p, _ => ([.mk (.odd p) (brokenItem p)], none, none)
  | fuel + 1, depth, _, '"' :: cs =>
    match stringFrom cs with
    | .error p => ([.mk (.odd p) (.broken .text p)], none, none)
    | .ok (key, rest) =>
      match skipSpace rest with
      | ':' :: cs => consEntry (.named key) (value fuel depth cs) (moreEntries fuel depth)
      | cs => ([.mk (.named key) (brokenItem (faultAt cs))], none, none)
  | _ + 1, _, p, _ => ([.mk (.odd p) (brokenItem p)], none, none)

/-- The entries from behind the opening brace. -/
def firstEntry : Nat → Nat → List Char → List Entry × Option Problem × Option (List Char)
  | 0, _, _ => ([], some .malformed, none)
  | _ + 1, _, '}' :: cs => ([], none, some cs)
  | fuel + 1, depth, cs => entry fuel depth (faultAt cs) cs

/-- The entries from behind another entry. -/
def moreEntries : Nat → Nat → List Char → List Entry × Option Problem × Option (List Char)
  | 0, _, _ => ([], some .malformed, none)
  | fuel + 1, depth, text =>
    match skipSpace text with
    | '}' :: cs => ([], none, some cs)
    | ',' :: cs =>
      match skipSpace cs with
      | '}' :: _ => ([.mk (.odd .malformed) (brokenItem .malformed)], none, none)
      | cs => entry fuel depth (faultAt cs) cs
    | cs => ([], some (faultAt cs), none)

end

/-- Nested calls within one step of the text stay below this number. -/
def fuelFor (cs : List Char) : Nat := 4 * cs.length + 4

def document (text : String) : Document :=
  match value (fuelFor text.toList) maxDepth text.toList with
  | (root, some rest) => ⟨root, !(skipSpace rest).isEmpty⟩
  | (root, none) => ⟨root, false⟩

end Ambient.Manifest.Json
