import ConfigModules.Text.Hex
/-!
String literals of a script. The text of a literal is read as characters and lone surrogates. A text
without lone surrogates is kept as it is; in the others every lone surrogate, and every replacement
character, is spelled as a replacement character and four hexadecimal digits.
-/
namespace ConfigModules.Script

/-- A part of a string: a character, or a surrogate code unit without its partner. -/
inductive TextPart where
  | char (c : Char)
  | surrogate (unit : Nat)
deriving DecidableEq, Repr

namespace TextPart

def isSurrogate : TextPart → Bool
  | .surrogate _ => true
  | .char _ => false

def plain : TextPart → Char
  | .char c => c
  | .surrogate _ => '\ufffd'

/-- The spelling of a part in a text with lone surrogates. -/
def marked : TextPart → List Char
  | .char c => if c = '\ufffd' then '\ufffd' :: Hex.fourDigits 0xFFFD else [c]
  | .surrogate unit => '\ufffd' :: Hex.fourDigits unit

def text (parts : List TextPart) : List Char :=
  if parts.any isSurrogate then parts.flatMap marked else parts.map plain

end TextPart

def isLineBreak (c : Char) : Bool := c = '\n' || c = '\r' || c = '\u2028' || c = '\u2029'

namespace StringText

def isHigh (n : Nat) : Bool := 0xD800 ≤ n && n < 0xDC00

def isLow (n : Nat) : Bool := 0xDC00 ≤ n && n < 0xE000

/-- A code point or a lone surrogate. -/
def ofCode (n : Nat) : TextPart :=
  if isHigh n || isLow n then .surrogate n else .char (Char.ofNat n)

def ofPair (high low : Nat) : TextPart :=
  .char (Char.ofNat (0x10000 + (high - 0xD800) * 0x400 + (low - 0xDC00)))

/-- The number of exactly `n` hexadecimal digits, and the rest. -/
def hex? : Nat → List Char → Nat → Option (Nat × List Char)
  | 0, cs, acc => some (acc, cs)
  | _ + 1, [], _ => none
  | n + 1, c :: cs, acc =>
    match Hex.value? c with
    | some d => hex? n cs (acc * 16 + d)
    | none => none

/-- The number in braces, the opening brace before it taken already. -/
def braced? : (hasDigit : Bool) → List Char → Nat → Option (Nat × List Char)
  | _, [], _ => none
  | hasDigit, c :: cs, acc =>
    if c = '\x7d' then if hasDigit then some (acc, cs) else none
    else match Hex.value? c with
      | some d => if acc * 16 + d ≤ 0x10FFFF then braced? true cs (acc * 16 + d) else none
      | none => none

/-- The low surrogate that a following escape spells. -/
def followingLow? (cs : List Char) : Option (Nat × List Char) :=
  match cs with
  | '\\' :: 'u' :: ds =>
    match hex? 4 ds 0 with
    | some (low, rest) => if isLow low then some (low, rest) else none
    | none => none
  | _ => none

/-- What follows the letter of a code escape. Two escapes of four digits may make up a pair. -/
def unicode? (cs : List Char) : Option (TextPart × List Char) :=
  match cs with
  | '\x7b' :: ds => (braced? false ds 0).map fun (n, rest) => (ofCode n, rest)
  | ds =>
    match hex? 4 ds 0 with
    | none => none
    | some (n, rest) =>
      if isHigh n then
        match followingLow? rest with
        | some (low, rest) => some (ofPair n low, rest)
        | none => some (.surrogate n, rest)
      else some (ofCode n, rest)

def isOctal (c : Char) : Bool := '0' ≤ c && c ≤ '7'

def octalValue (c : Char) : Nat := c.toNat - '0'.toNat

/-- The number of up to three octal digits below 256, the first of which is given. -/
def octal (first : Char) (cs : List Char) : Nat × List Char :=
  match cs with
  | b :: c :: cs =>
    if isOctal b then
      if isOctal c && first ≤ '3' then (octalValue first * 64 + octalValue b * 8 + octalValue c, cs)
      else (octalValue first * 8 + octalValue b, c :: cs)
    else (octalValue first, b :: c :: cs)
  | [b] => if isOctal b then (octalValue first * 8 + octalValue b, []) else (octalValue first, [b])
  | [] => (octalValue first, [])

/-- What a backslash and the text after it stand for. A line break stands for nothing. -/
def escape? (cs : List Char) : Option (List TextPart × List Char) :=
  match cs with
  | [] => none
  | '\r' :: '\n' :: cs => some ([], cs)
  | c :: cs =>
    if isLineBreak c then some ([], cs)
    else if c = 'n' then some ([.char '\n'], cs)
    else if c = 't' then some ([.char '\t'], cs)
    else if c = 'b' then some ([.char '\x08'], cs)
    else if c = 'v' then some ([.char '\x0b'], cs)
    else if c = 'f' then some ([.char '\x0c'], cs)
    else if c = 'r' then some ([.char '\r'], cs)
    else if c = 'x' then (hex? 2 cs 0).map fun (n, rest) => ([.char (Char.ofNat n)], rest)
    else if c = 'u' then (unicode? cs).map fun (part, rest) => ([part], rest)
    else if isOctal c then
      let (n, rest) := octal c cs
      some ([.char (Char.ofNat n)], rest)
    else some ([.char c], cs)

/-- Reads the parts up to the closing quote. -/
def parts? (quote : Char) : Nat → List Char → Option (List TextPart × List Char)
  | 0, _ => none
  | _ + 1, [] => none
  | fuel + 1, c :: cs =>
    if c = quote then some ([], cs)
    else if c = '\\' then
      match escape? cs with
      | none => none
      | some (head, rest) => (parts? quote fuel rest).map fun (tail, rest) => (head ++ tail, rest)
    else if c = '\n' ∨ c = '\r' then none
    else (parts? quote fuel cs).map fun (tail, rest) => (.char c :: tail, rest)

def read? (quote : Char) (cs : List Char) : Option (String × List Char) :=
  (parts? quote (cs.length + 1) cs).map fun (parts, rest) => (String.ofList (TextPart.text parts), rest)

end StringText

end ConfigModules.Script
