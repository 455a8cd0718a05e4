import RecordQuery.Json.Document

/-!
# Tokens of JSON text

The text is scanned one character at a time by a machine whose state says what has been begun: a
word, a string, a number, or nothing. A fault that leaves the end of its token in sight becomes a
leaf that can be passed over, and scanning goes on; any other is the last token.
-/

namespace RecordQuery

inductive Token where
  | openList | closeList | openObject | closeObject | comma | colon
  /-- A word, a number or a string, or the fault in one. -/
  | leaf (doc : Doc)
  /-- A character that begins no token. -/
  | other
  deriving Repr, Inhabited

/-- A number as far as it has been read: `± significand · 10 ^ shift · 10 ^ ± exponent`. Digits are
gathered while the significand stays below `2 ^ 64`; later ones count only for their place. -/
structure Literal where
  negative : Bool := false
  significand : Nat := 0
  full : Bool := false
  shift : Int := 0
  integral : Bool := true
  exponentNegative : Bool := false
  exponent : Nat := 0
  deriving DecidableEq, Repr, Inhabited

namespace Literal

def digit (c : Char) : Nat := c.toNat - '0'.toNat

def pushWhole (literal : Literal) (c : Char) : Literal :=
  let next := literal.significand * 10 + digit c
  if !literal.full && next < 2 ^ 64 then { literal with significand := next }
  else { literal with full := true, shift := literal.shift + 1 }

def openFraction (literal : Literal) : Literal :=
  { literal with full := false, integral := false }

def pushFraction (literal : Literal) (c : Char) : Literal :=
  let next := literal.significand * 10 + digit c
  if !literal.full && next < 2 ^ 64 then
    { literal with significand := next, shift := literal.shift - 1 }
  else { literal with full := true }

def pushExponent (literal : Literal) (c : Char) : Literal :=
  { literal with exponent := literal.exponent * 10 + digit c }

/-- An integer literal is an integer when it fits in 64 bits; a negative zero is a double. -/
def number? (literal : Literal) : Option Number :=
  if literal.integral && literal.shift == 0 && !literal.negative then
    some (.int literal.significand)
  else if literal.integral && literal.shift == 0 && 0 < literal.significand
      && literal.significand ≤ 2 ^ 63 then
    some (.int (-literal.significand))
  else
    let power : Int :=
      if literal.exponentNegative then -literal.exponent else literal.exponent
    (Double.ofDecimal? literal.negative literal.significand (literal.shift + power)).map .double

def leaf (literal : Literal) : Doc :=
  match literal.number? with
  | some value => .num value
  | none => .faulty (.past .numberTooLarge)

end Literal

/-- Which part of a number has been read last. -/
inductive NumberPart where
  | sign | zero | whole | point | fraction | mark | markSign | exponent
  deriving DecidableEq, Repr

namespace NumberPart

/-- Whether a number may end after this part. -/
def complete : NumberPart → Bool
  | zero | whole | fraction | exponent => true
  | sign | point | mark | markSign => false

/-- The part that a further character belongs to, if the number goes on with it. -/
def advance (part : NumberPart) (literal : Literal) (c : Char) : Option (NumberPart × Literal) :=
  match part with
  | sign =>
    if c = '0' then some (zero, literal)
    else if c.isDigit then some (whole, literal.pushWhole c)
    else none
  | zero =>
    if c = '.' then some (point, literal.openFraction)
    else if c = 'e' ∨ c = 'E' then some (mark, { literal with integral := false })
    else none
  | whole =>
    if c.isDigit then some (whole, literal.pushWhole c)
    else if c = '.' then some (point, literal.openFraction)
    else if c = 'e' ∨ c = 'E' then some (mark, { literal with integral := false })
    else none
  | point => if c.isDigit then some (fraction, literal.pushFraction c) else none
  | fraction =>
    if c.isDigit then some (fraction, literal.pushFraction c)
    else if c = 'e' ∨ c = 'E' then some (mark, literal)
    else none
  | mark =>
    if c = '+' then some (markSign, literal)
    else if c = '-' then some (markSign, { literal with exponentNegative := true })
    else if c.isDigit then some (exponent, literal.pushExponent c)
    else none
  | markSign | exponent => if c.isDigit then some (exponent, literal.pushExponent c) else none

end NumberPart

/-- What the scanner has begun. A string is held backwards, with the first flaw found in it. -/
inductive Scan where
  | between
  | word (due : List Char) (doc : Doc)
  | number (part : NumberPart) (literal : Literal)
  | string (read : List Char) (flaw : Option Malformed)
  | escape (read : List Char) (flaw : Option Malformed)
  /-- Up to four bytes in the place of hexadecimal digits, backwards, after the high half of a pair
  if there is one. -/
  | hex (digits : List Char) (high : Option Nat) (read : List Char) (flaw : Option Malformed)
  /-- The escape that holds the low half of a pair is due. -/
  | pairEscape (high : Nat) (read : List Char) (flaw : Option Malformed)
  | pairMark (high : Nat) (read : List Char) (flaw : Option Malformed)
  | stopped
  deriving Repr, Inhabited

namespace Scan

def stop (fault : Fault) : List Token × Scan := ([.leaf (.faulty fault)], .stopped)

/-- The fault that ends a string; a flaw before it is what a reader meets first. -/
def inFlawed (flaw : Option Malformed) (cause : Malformed) : Fault := ⟨flaw.getD cause, some cause⟩

def blank (c : Char) : Bool := c = ' ' || c = '\n' || c = '\t' || c = '\r'

/-- A character with nothing begun. -/
def start (c : Char) : List Token × Scan :=
  if blank c then ([], .between)
  else if c = '[' then ([.openList], .between)
  else if c = ']' then ([.closeList], .between)
  else if c = '\x7b' then ([.openObject], .between)
  else if c = '\x7d' then ([.closeObject], .between)
  else if c = ',' then ([.comma], .between)
  else if c = ':' then ([.colon], .between)
  else if c = '"' then ([], .string [] none)
  else if c = 'n' then ([], .word ['u', 'l', 'l'] .null)
  else if c = 't' then ([], .word ['r', 'u', 'e'] (.bool true))
  else if c = 'f' then ([], .word ['a', 'l', 's', 'e'] (.bool false))
  else if c = '-' then ([], .number .sign { negative := true })
  else if c = '0' then ([], .number .zero {})
  else if c.isDigit then ([], .number .whole (Literal.pushWhole {} c))
  else ([.other], .between)

def closeString (read : List Char) : Option Malformed → Token
  | none => .leaf (.str (String.ofList read.reverse))
  | some cause => .leaf (.faulty (.past cause))

/-- A character inside a string, outside an escape. -/
def inString (read : List Char) (flaw : Option Malformed) (c : Char) : List Token × Scan :=
  if c = '"' then ([closeString read flaw], .between)
  else if c = '\\' then ([], .escape read flaw)
  else if c.toNat < 32 then stop (inFlawed flaw .controlCharacter)
  else ([], .string (c :: read) flaw)

/-- The character that a one-letter escape stands for. -/
def simpleEscape? (c : Char) : Option Char :=
  if c = '"' ∨ c = '\\' ∨ c = '/' then some c
  else if c = 'b' then some '\x08'
  else if c = 'f' then some '\x0c'
  else if c = 'n' then some '\n'
  else if c = 'r' then some '\r'
  else if c = 't' then some '\t'
  else none

def hexValue? (c : Char) : Option Nat :=
  if c.isDigit then some (c.toNat - '0'.toNat)
  else if 'a' ≤ c ∧ c ≤ 'f' then some (c.toNat - 'a'.toNat + 10)
  else if 'A' ≤ c ∧ c ≤ 'F' then some (c.toNat - 'A'.toNat + 10)
  else none

/-- How many bytes of the text hold these characters. -/
def byteCount (chars : List Char) : Nat :=
  chars.foldl (fun count c => count + c.utf8Size) 0

/-- The number written by digits that are given backwards. -/
def hexNumber? : List Char → Option Nat
  | [] => some 0
  | c :: before => do
    let value ← hexValue? c
    let rest ← hexNumber? before
    return rest * 16 + value

/-- A complete four-digit escape: a character, the first half of a pair, or a stray half. -/
def closeHex (unit : Nat) (high : Option Nat) (read : List Char) (flaw : Option Malformed) : Scan :=
  let isHigh := 0xD800 ≤ unit && unit ≤ 0xDBFF
  let isLow := 0xDC00 ≤ unit && unit ≤ 0xDFFF
  match high with
  | some first =>
    if isLow then
      .string (Char.ofNat (0x10000 + (first - 0xD800) * 0x400 + (unit - 0xDC00)) :: read) flaw
    else .string read (flaw <|> some .loneSurrogate)
  | none =>
    if isLow then .string read (flaw <|> some .loneSurrogate)
    else if isHigh then .pairEscape unit read flaw
    else .string (Char.ofNat unit :: read) flaw

def step : Scan → Char → List Token × Scan
  | .between, c => start c
  | .word [] doc, c => let (tokens, next) := start c; (.leaf doc :: tokens, next)
  | .word (d :: due) doc, c => if c = d then ([], .word due doc) else stop (.both .expectedWord)
  | .number part literal, c =>
    match part.advance literal c with
    | some (next, longer) => ([], .number next longer)
    | none =>
      if part.complete && !(part == .zero && c.isDigit) then
        let (tokens, next) := start c
        (.leaf literal.leaf :: tokens, next)
      else stop (.both .badNumber)
  | .string read flaw, c => inString read flaw c
  | .escape read flaw, c =>
    if c = 'u' then ([], .hex [] none read flaw)
    else match simpleEscape? c with
      | some plain => ([], .string (plain :: read) flaw)
      | none => stop (inFlawed flaw .badEscape)
  | .hex digits high read flaw, c =>
    if byteCount (c :: digits) < 4 then ([], .hex (c :: digits) high read flaw)
    else match hexNumber? (c :: digits) with
      | some unit => ([], closeHex unit high read flaw)
      | none => stop (inFlawed flaw .badEscape)
  | .pairEscape high read flaw, c =>
    if c = '\\' then ([], .pairMark high read flaw)
    else inString read (flaw <|> some .brokenPair) c
  | .pairMark high read flaw, c =>
    if c = 'u' then ([], .hex [] (some high) read flaw)
    else match simpleEscape? c with
      | some plain => ([], .string (plain :: read) (flaw <|> some .brokenPair))
      | none => stop (inFlawed (flaw <|> some .brokenPair) .badEscape)
  | .stopped, _ => ([], .stopped)

/-- The tokens that the end of the text brings out. -/
def atEnd : Scan → List Token
  | .between | .stopped => []
  | .word [] doc => [.leaf doc]
  | .word (_ :: _) _ => [.leaf (.faulty (.both .endInValue))]
  | .number part literal =>
    if part.complete then [.leaf literal.leaf]
    else [.leaf (.faulty ⟨.endInValue, some .badNumber⟩)]
  | .string _ flaw | .escape _ flaw | .hex _ _ _ flaw | .pairEscape _ _ flaw
  | .pairMark _ _ flaw => [.leaf (.faulty (inFlawed flaw .endInString))]

def tokens : Scan → List Char → List Token
  | scan, [] => scan.atEnd
  | scan, c :: rest => let (out, next) := scan.step c; out ++ tokens next rest

end Scan

/-- The tokens of a text. -/
def Token.scan (text : List Char) : List Token := Scan.between.tokens text

end RecordQuery
