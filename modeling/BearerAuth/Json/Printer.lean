/-!
# Written values

The compact written form: no blanks, and in strings only the quote, the backslash and the control
characters are escaped, by one letter where there is one.

* `quoted` writes a string;
* `strings` writes a list of strings;
* `object` writes an object from written members.
-/

namespace BearerAuth.Json.Printer

/-- A hexadecimal digit, in lower case. -/
def hexDigit (n : Nat) : Char := if n < 10 then Char.ofNat (n + 48) else Char.ofNat (n + 87)

/-- A character as it stands in a string. -/
def escape (c : Char) : List Char :=
  if c == '"' then ['\\', '"']
  else if c == '\\' then ['\\', '\\']
  else if c == '\x08' then ['\\', 'b']
  else if c == '\x0c' then ['\\', 'f']
  else if c == '\n' then ['\\', 'n']
  else if c == '\x0d' then ['\\', 'r']
  else if c == '\t' then ['\\', 't']
  else if c.toNat < 0x20 then
    ['\\', 'u', '0', '0', hexDigit (c.toNat / 16), hexDigit (c.toNat % 16)]
  else [c]

/-- A string between quotes. -/
def quoted (s : String) : List Char := '"' :: s.toList.flatMap escape ++ ['"']

/-- Written values with commas between them. -/
def separated : List (List Char) → List Char
  | [] => []
  | [a] => a
  | a :: rest => a ++ ',' :: separated rest

/-- A list of strings. -/
def strings (items : List String) : List Char := '[' :: separated (items.map quoted) ++ [']']

/-- A whole number. -/
def integer (n : Int) : List Char := (toString n).toList

/-- A member of an object. -/
def member (name : String) (value : List Char) : List Char := quoted name ++ ':' :: value

/-- An object from its written members. -/
def object (members : List (List Char)) : List Char := '{' :: separated members ++ ['}']

end BearerAuth.Json.Printer
