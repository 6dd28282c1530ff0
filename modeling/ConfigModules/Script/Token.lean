import ConfigModules.Script.StringText
import ConfigModules.Script.NumberText
import ConfigModules.Text.Ranges
import ConfigModules.Text.IdentifierTable
/-!
Tokens of a script module, read one at a time from the characters ahead. A slash is always a mark
here; the parser reads a regular expression or the rest of a template where one is due.
-/
namespace ConfigModules.Script

inductive Token where
  /-- A name or a keyword; the flag tells that escapes spell it. -/
  | name (text : String) (escaped : Bool)
  | privateName
  | number (x : Double)
  | integer
  | string (s : String)
  /-- A punctuation mark, or the quote of a template. -/
  | mark (text : String)
  | eof
deriving DecidableEq, Repr

/-- The text ahead: the next token, what it is read from, and what follows it. -/
structure Ahead where
  token : Token
  /-- Whether a line break stands before the token. -/
  newLine : Bool
  here : List Char
  rest : List Char

namespace Ahead

/-- Blanks: the usual ones and those of other scripts. -/
def isSpace (c : Char) : Bool :=
  c = ' ' || c = '\t' || c = '\x0b' || c = '\x0c' || c = '\x85' || c = '\xa0' || c = '\u1680'
    || ('\u2000' ≤ c && c ≤ '\u200b') || c = '\u202f' || c = '\u205f' || c = '\u3000'
    || c = '\ufeff'

/-- Where the skipping of blanks stands. -/
inductive Blank where
  | between
  | inLine
  | inBlock

/-- Skips blanks and comments, and tells whether a line break was among them. A block comment must
end. -/
def skipBlanks : Blank → (newLine : Bool) → List Char → Option (Bool × List Char)
  | .inBlock, _, [] => none
  | _, newLine, [] => some (newLine, [])
  | .between, newLine, '/' :: '/' :: cs => skipBlanks .inLine newLine cs
  | .between, newLine, '/' :: '*' :: cs => skipBlanks .inBlock newLine cs
  | .between, newLine, c :: cs =>
    if isLineBreak c then skipBlanks .between true cs
    else if isSpace c then skipBlanks .between newLine cs
    else some (newLine, c :: cs)
  | .inLine, newLine, c :: cs =>
    if isLineBreak c then skipBlanks .between true cs else skipBlanks .inLine newLine cs
  | .inBlock, newLine, '*' :: '/' :: cs => skipBlanks .between newLine cs
  | .inBlock, newLine, c :: cs => skipBlanks .inBlock (newLine || isLineBreak c) cs

def startsName (c : Char) : Bool :=
  c.isAlpha || c = '_' || c = '$' || (0x80 ≤ c.toNat && inRanges c.toNat IdentifierTable.starts)

def continuesName (c : Char) : Bool :=
  startsName c || c.isDigit || c = '\u200c' || c = '\u200d'
    || (0x80 ≤ c.toNat && inRanges c.toNat IdentifierTable.onlyParts)

/-- The character that a code escape in a name spells. -/
def nameEscape? (cs : List Char) : Option (Char × List Char) :=
  match cs with
  | 'u' :: '\x7b' :: ds =>
    (StringText.braced? false ds 0).map fun (n, rest) => (Char.ofNat n, rest)
  | 'u' :: ds => (StringText.hex? 4 ds 0).map fun (n, rest) => (Char.ofNat n, rest)
  | _ => none

/-- Reads the characters of a name; `taken` has those before, the latest first. -/
def nameFrom? : Nat → (taken : List Char) → (escaped : Bool) → List Char →
    Option (List Char × Bool × List Char)
  | 0, _, _, _ => none
  | _ + 1, taken, escaped, [] => some (taken.reverse, escaped, [])
  | fuel + 1, taken, escaped, c :: cs =>
    if c = '\\' then
      match nameEscape? cs with
      | none => none
      | some (x, rest) =>
        if (if taken.isEmpty then startsName x else continuesName x) then
          nameFrom? fuel (x :: taken) true rest
        else none
    else if (if taken.isEmpty then startsName c else continuesName c) then
      nameFrom? fuel (c :: taken) escaped cs
    else some (taken.reverse, escaped, c :: cs)

def name? (cs : List Char) : Option (String × Bool × List Char) :=
  match nameFrom? (cs.length + 1) [] false cs with
  | some (c :: name, escaped, rest) => some (String.ofList (c :: name), escaped, rest)
  | _ => none

/-- The marks of more than one character, longer ones before their beginnings. -/
def longMarks : List String :=
  [">>>=", "...", "===", "!==", "**=", "<<=", ">>=", ">>>", "&&=", "||=", "??=", "=>", "==", "!=",
   "<=", ">=", "**", "++", "--", "<<", ">>", "&&", "||", "??", "+=", "-=", "*=", "/=", "%=", "&=",
   "|=", "^="]

/-- The rest after a text, if it stands here. -/
def after? : List Char → List Char → Option (List Char)
  | [], cs => some cs
  | x :: xs, c :: cs => if x = c then after? xs cs else none
  | _ :: _, [] => none

def firstMark? : List String → List Char → Option (String × List Char)
  | [], _ => none
  | m :: ms, cs =>
    match after? m.toList cs with
    | some rest => some (m, rest)
    | none => firstMark? ms cs

/-- Whether a mark can never be longer than this character. -/
def isLoneMark (c : Char) : Bool :=
  c = '\x7b' || c = '\x7d' || c = '(' || c = ')' || c = '[' || c = ']' || c = ';' || c = ','
    || c = '~' || c = ':' || c = '@' || c = '\x60'

/-- Whether a mark of one character may stand by itself although longer ones begin with it. -/
def isShortMark (c : Char) : Bool :=
  c = '<' || c = '>' || c = '+' || c = '-' || c = '*' || c = '/' || c = '%' || c = '&' || c = '|'
    || c = '^' || c = '!' || c = '?' || c = '=' || c = '.'

/-- Reads a mark that may have several characters. The optional chain is none before a digit. -/
def mark? (cs : List Char) : Option (String × List Char) :=
  match firstMark? longMarks cs with
  | some found => some found
  | none =>
    match cs with
    | '?' :: '.' :: rest =>
      if (rest.head?.any Char.isDigit) then some ("?", '.' :: rest) else some ("?.", rest)
    | c :: rest => if isShortMark c then some (String.singleton c, rest) else none
    | [] => none

/-- Whether something that would run into a number follows. -/
def touchesNumber (cs : List Char) : Bool := cs.head?.any fun c => c.isDigit || startsName c

/-- Reads the token at the front of a text without leading blanks. -/
def token? (cs : List Char) : Option (Token × List Char) :=
  match cs with
  | [] => some (.eof, [])
  | c :: rest =>
    if isLoneMark c then some (.mark (String.singleton c), rest)
    else if c = '\x22' ∨ c = '\x27' then
      (StringText.read? c rest).map fun (s, rest) => (.string s, rest)
    else if c.isDigit ∨ (c = '.' ∧ rest.head?.any Char.isDigit) then
      match NumberText.read? cs with
      | none => none
      | some (n, rest) =>
        if touchesNumber rest then none
        else match n with
          | .real x => some (.number x, rest)
          | .integer => some (.integer, rest)
    else if startsName c ∨ c = '\\' then
      (name? cs).map fun (name, escaped, rest) => (.name name escaped, rest)
    else if c = '#' then (name? rest).map fun (_, _, rest) => (.privateName, rest)
    else (mark? cs).map fun (m, rest) => (.mark m, rest)

def read (cs : List Char) : Option Ahead :=
  match skipBlanks .between false cs with
  | none => none
  | some (newLine, here) =>
    match token? here with
    | none => none
    | some (token, rest) => some { token, newLine, here, rest }

def next (a : Ahead) : Option Ahead := read a.rest

end Ahead

end ConfigModules.Script
