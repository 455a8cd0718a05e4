import RecordQuery.Json
import RecordQuery.Double.Shortest

/-!
# Compact JSON text

No blanks; a string escapes the quote, the backslash and the characters below U+0020; a double is
written with the fewest digits that read back, positionally when its leading digit is at a place
from `10 ^ -5` to `10 ^ 15`, and always with a fraction or an exponent, so that it is never read
back as an integer.
-/

namespace RecordQuery

/-- Positional from `10 ^ -5` to below `10 ^ 16`, with at least one fraction digit; a tie between
two shortest decimals goes to the even one. -/
def Double.jsonChars (d : Double) : List Char :=
  let decimal := d.shortest .toEven
  let magnitude :=
    if -5 ≤ decimal.leading ∧ decimal.leading < 16 then
      if decimal.exponent < 0 then decimal.positional else decimal.positional ++ ['.', '0']
    else decimal.scientific
  if d.negative then '-' :: magnitude else magnitude

def Number.chars : Number → List Char
  | .int value => (toString value).toList
  | .double value => value.jsonChars

namespace Json

/-- The lower-case hexadecimal digit of a number below sixteen. -/
def hexDigit (n : Nat) : Char := Nat.digitChar n

def escapeChar (c : Char) : List Char :=
  if c = '"' then ['\\', '"']
  else if c = '\\' then ['\\', '\\']
  else if c = '\n' then ['\\', 'n']
  else if c = '\r' then ['\\', 'r']
  else if c = '\t' then ['\\', 't']
  else if c = '\x08' then ['\\', 'b']
  else if c = '\x0c' then ['\\', 'f']
  else if c.toNat < 32 then
    ['\\', 'u', '0', '0', hexDigit (c.toNat / 16), hexDigit (c.toNat % 16)]
  else [c]

def stringChars (s : String) : List Char := '"' :: s.toList.flatMap escapeChar ++ ['"']

mutual

def chars : Json → List Char
  | .null => ['n', 'u', 'l', 'l']
  | .bool true => ['t', 'r', 'u', 'e']
  | .bool false => ['f', 'a', 'l', 's', 'e']
  | .num value => value.chars
  | .str value => stringChars value
  | .arr [] => ['[', ']']
  | .arr (item :: rest) => '[' :: chars item ++ itemsChars rest
  | .obj [] => ['\x7b', '\x7d']
  | .obj ((key, value) :: rest) =>
    '\x7b' :: stringChars key ++ ':' :: chars value ++ entriesChars rest

/-- The items after the first, and the bracket that closes them. -/
def itemsChars : List Json → List Char
  | [] => [']']
  | item :: rest => ',' :: chars item ++ itemsChars rest

/-- The entries after the first, and the brace that closes them. -/
def entriesChars : List (String × Json) → List Char
  | [] => ['\x7d']
  | (key, value) :: rest => ',' :: stringChars key ++ ':' :: chars value ++ entriesChars rest

end

/-- The compact text of a value; the entries of an object are written in the order they have. -/
def compact (value : Json) : String := String.ofList value.chars

end Json

end RecordQuery
