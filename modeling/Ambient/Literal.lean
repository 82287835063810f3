import Ambient.Dialect

/-! String literals: double quotes around the text, with the escapes of each dialect. -/
namespace Ambient.Literal

/-- The last `n` decimal digits of a number. -/
def decimalDigits : Nat → Nat → List Char
  | 0, _ => []
  | n + 1, k => decimalDigits n (k / 10) ++ [Nat.digitChar (k % 10)]

/-- The last `n` hexadecimal digits of a number, in lower case. -/
def hexadecimalDigits : Nat → Nat → List Char
  | 0, _ => []
  | n + 1, k => hexadecimalDigits n (k / 16) ++ [Nat.digitChar (k % 16)]

def isControl (c : Char) : Bool := c.toNat < 0x20

/-- Lua knows few escapes by letter; other controls, and delete, go by three decimal digits. -/
def luaChar (c : Char) : List Char :=
  if c = '\\' then ['\\', '\\']
  else if c = '"' then ['\\', '"']
  else if c = '\n' then ['\\', 'n']
  else if c = '\r' then ['\\', 'r']
  else if c = '\t' then ['\\', 't']
  else if isControl c || c.toNat = 0x7F then '\\' :: decimalDigits 3 c.toNat
  else [c]

/-- TypeScript shares the escapes of JSON: controls without a letter go by four hexadecimal digits. -/
def typeScriptChar (c : Char) : List Char :=
  if c = '\\' then ['\\', '\\']
  else if c = '"' then ['\\', '"']
  else if c = '\n' then ['\\', 'n']
  else if c = '\r' then ['\\', 'r']
  else if c = '\t' then ['\\', 't']
  else if c.toNat = 0x08 then ['\\', 'b']
  else if c.toNat = 0x0C then ['\\', 'f']
  else if isControl c then '\\' :: 'u' :: hexadecimalDigits 4 c.toNat
  else [c]

def escape (d : Dialect) (c : Char) : List Char :=
  match d with
  | .lua => luaChar c
  | .typeScript => typeScriptChar c

/-- The characters of a literal without the quotes around it. -/
def body (d : Dialect) (s : List Char) : List Char := s.flatMap (escape d)

def quote (d : Dialect) (s : List Char) : List Char := '"' :: body d s ++ ['"']

/-- The literal that denotes a string. -/
def string (d : Dialect) (s : String) : String := String.ofList (quote d s.toList)

end Ambient.Literal
