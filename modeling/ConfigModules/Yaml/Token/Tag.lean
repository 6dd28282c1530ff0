import ConfigModules.Yaml.Token.Basic
import ConfigModules.Yaml.Cursor
import ConfigModules.Text.Hex
/-! Anchors, aliases, tags and directives. -/
namespace ConfigModules.Yaml

/-- Whether a name may end before this character. -/
def endsName (c : Char) : Bool :=
  isBlankOrEnd c || c = '?' || c = ':' || c = ',' || c = ']' || c = '\x7d' || c = '%' || c = '@'
    || c = '\x60'

/-- Reads an anchor or an alias, the indicator included. -/
def readName (isAlias : Bool) (c : Cursor) : Except Fault (Token × Cursor) := do
  let start := c.mark
  let c := c.skip
  c.ensure 0
  let (name, c) := c.takeRun isWordChar
  c.ensure 0
  if name.isEmpty || !endsName (c.peek 0) then
    throw ⟨.missingName, c.mark, some (if isAlias then .scanAlias else .scanAnchor, start)⟩
  let name := String.ofList name
  return (⟨if isAlias then .aliasTo name else .anchor name, start, c.mark⟩, c)

namespace Tag

/-- Where a tag text is read: the activity for scanning it, the one for its parts, and its start. -/
structure Setting where
  scan : Activity
  parse : Activity
  start : Mark

def Setting.tag (start : Mark) : Setting := ⟨.scanTag, .parseTag, start⟩

def Setting.directive (start : Mark) : Setting :=
  ⟨.scanTagHandleDirective, .parseTagDirective, start⟩

/-- Reads a tag handle: a bang, word characters, and in most cases another bang. -/
def readHandle (isDirective : Bool) (ctx : Setting) (c : Cursor) :
    Except Fault (List Char × Cursor) := do
  c.ensure 0
  if c.peek 0 != '!' then throw ⟨.missingBang, c.mark, some (ctx.scan, ctx.start)⟩
  let c := c.skip
  c.ensure 0
  let (word, c) := c.takeRun isWordChar
  c.ensure 0
  if c.peek 0 = '!' then return ('!' :: word ++ ['!'], c.skip)
  else if isDirective && !word.isEmpty then
    throw ⟨.missingBang, c.mark, some (.parseTagHandleDirective, ctx.start)⟩
  else return ('!' :: word, c)

/-- Characters of a tag. Flow indicators are admitted between angle brackets and in directives. -/
def isUriChar (withFlow : Bool) (c : Char) : Bool :=
  isWordChar c || c = ';' || c = '/' || c = '?' || c = ':' || c = '@' || c = '&' || c = '='
    || c = '+' || c = '$' || c = '.' || c = '%' || c = '!' || c = '~' || c = '*' || c = '\x27'
    || c = '(' || c = ')' || (withFlow && (c = ',' || c = '[' || c = ']'))

/-- How many octets a character has whose first octet is this one. -/
def octetCount? (octet : Nat) : Option Nat :=
  if octet < 0x80 then some 1
  else if octet / 0x20 = 0x6 then some 2
  else if octet / 0x10 = 0xE then some 3
  else if octet / 0x08 = 0x1E then some 4
  else none

def readOctet (ctx : Setting) (c : Cursor) : Except Fault (Nat × Cursor) := do
  c.ensure 2
  match c.peek 0, Hex.value? (c.peek 1), Hex.value? (c.peek 2) with
  | '%', some high, some low => return (high * 16 + low, c.skipMany 3)
  | _, _, _ => throw ⟨.badUriEscape, c.mark, some (ctx.parse, ctx.start)⟩

/-- Reads `n` escaped octets that continue a character. -/
def readContinuation (ctx : Setting) : Nat → Cursor → Except Fault (TagBytes × Cursor)
  | 0, c => .ok ([], c)
  | n + 1, c => do
    let (octet, d) ← readOctet ctx c
    if octet / 0x40 != 2 then throw ⟨.badTrailingOctet, c.mark, some (ctx.parse, ctx.start)⟩
    let (more, d) ← readContinuation ctx n d
    return (UInt8.ofNat octet :: more, d)

/-- Reads the escaped octets of one character. Only their form is checked, so they may spell none. -/
def readEscaped (ctx : Setting) (c : Cursor) : Except Fault (TagBytes × Cursor) := do
  let (octet, d) ← readOctet ctx c
  match octetCount? octet with
  | none => throw ⟨.badLeadingOctet, c.mark, some (ctx.parse, ctx.start)⟩
  | some n =>
    let (more, d) ← readContinuation ctx (n - 1) d
    return (UInt8.ofNat octet :: more, d)

def asciiBytes (cs : List Char) : TagBytes := cs.map fun c => UInt8.ofNat c.toNat

/-- Reads characters of a tag; `bytes` holds what was read before, latest octet first. -/
def readUriFrom (withFlow : Bool) (ctx : Setting) :
    Nat → TagBytes → Cursor → Except Fault (TagBytes × Cursor)
  | 0, bytes, c => .ok (bytes.reverse, c)
  | fuel + 1, bytes, c => do
    c.ensure 0
    let x := c.peek 0
    if !isUriChar withFlow x then return (bytes.reverse, c)
    else if x = '%' then
      let (octets, c) ← readEscaped ctx c
      readUriFrom withFlow ctx fuel (octets.reverse ++ bytes) c
    else readUriFrom withFlow ctx fuel (UInt8.ofNat x.toNat :: bytes) c.skip

/-- Reads a tag text after a handle that turned out to be its beginning: its bang is dropped. An
absent handle and an absent text together are a fault. The text ends before an octet of zero. -/
def readUri (withFlow : Bool) (ctx : Setting) (handle : List Char) (c : Cursor) :
    Except Fault (TagBytes × Cursor) := do
  let (bytes, d) ← readUriFrom withFlow ctx (c.rest.length + 1) (asciiBytes handle.tail).reverse c
  if handle.isEmpty && bytes.isEmpty then
    throw ⟨.missingTagUri, d.mark, some (ctx.parse, ctx.start)⟩
  return (bytes.takeWhile (· ≠ 0), d)

/-- Whether a handle has a bang at both ends. -/
def isNamedHandle (handle : List Char) : Bool :=
  2 ≤ handle.length && handle.head? = some '!' && handle.getLast? = some '!'

def readParts (ctx : Setting) (c : Cursor) : Except Fault ((String × TagBytes) × Cursor) := do
  c.ensure 1
  if c.peek 1 = '<' then
    let (suffix, c) ← readUri true ctx [] (c.skipMany 2)
    if c.peek 0 != '>' then throw ⟨.missingTagClose, c.mark, some (ctx.scan, ctx.start)⟩
    return (("", suffix), c.skip)
  else
    let (handle, c) ← readHandle false ctx c
    if isNamedHandle handle then
      let (suffix, c) ← readUri false ctx [] c
      return ((String.ofList handle, suffix), c)
    else
      let (suffix, c) ← readUri false ctx handle c
      if suffix.isEmpty then return (("", asciiBytes ['!']), c)
      else return (("!", suffix), c)

/-- Reads a tag. It ends before a blank or a break, in flow collections also before a comma. -/
def read (inFlow : Bool) (c : Cursor) : Except Fault (Token × Cursor) := do
  let start := c.mark
  let ((handle, suffix), c) ← readParts (.tag start) c
  c.ensure 0
  if !(inFlow && c.peek 0 = ',') && !isBlankOrEnd (c.peek 0) then
    throw ⟨.missingSpaceOrBreak, c.mark, some (.scanTag, start)⟩
  return (⟨.tag handle suffix, start, c.mark⟩, c)

end Tag

namespace Directive

/-- Reads a number of at most nine digits. -/
def readNumber (start : Mark) (c : Cursor) : Except Fault (Nat × Cursor) := do
  let (digits, d) := c.takeRun Char.isDigit
  if digits.length > 9 then
    throw ⟨.longVersionNumber, (c.skipMany 9).mark, some (.scanVersionDirective, start)⟩
  d.ensure 0
  if digits.isEmpty then throw ⟨.missingVersionNumber, d.mark, some (.scanVersionDirective, start)⟩
  return (digits.foldl (fun n x => n * 10 + (x.toNat - '0'.toNat)) 0, d)

def readVersion (start : Mark) (c : Cursor) : Except Fault (TokenKind × Cursor) := do
  let c := c.skipRun isBlank
  c.ensure 0
  let (major, c) ← readNumber start c
  if c.peek 0 != '.' then throw ⟨.missingVersionDot, c.mark, some (.scanVersionDirective, start)⟩
  let c := c.skip
  c.ensure 0
  let (minor, c) ← readNumber start c
  return (.versionDirective major minor, c)

def readTag (start : Mark) (c : Cursor) : Except Fault (TokenKind × Cursor) := do
  let c := c.skipRun isBlank
  let (handle, c) ← Tag.readHandle true (.directive start) c
  c.ensure 0
  if !isBlank (c.peek 0) then throw ⟨.missingSpace, c.mark, some (.scanTagDirective, start)⟩
  let c := c.skipRun isBlank
  let (expansion, c) ← Tag.readUri true (.directive start) [] c
  c.ensure 0
  if !isBlankOrEnd (c.peek 0) then
    throw ⟨.missingSpaceOrBreak, c.mark, some (.scanTagDirective, start)⟩
  return (.tagDirective (String.ofList handle) expansion, c)

def read (c : Cursor) : Except Fault (Token × Cursor) := do
  let start := c.mark
  let fault (problem : Problem) (mark : Mark) : Fault := ⟨problem, mark, some (.scanDirective, start)⟩
  let c := c.skip
  c.ensure 0
  let (name, c) := c.takeRun isWordChar
  c.ensure 0
  if name.isEmpty then throw (fault .missingDirectiveName c.mark)
  if !isBlankOrEnd (c.peek 0) then throw (fault .directiveNameCharacter c.mark)
  let (kind, c) ←
    if name = "YAML".toList then readVersion start c
    else if name = "TAG".toList then readTag start c
    else throw (fault .unknownDirective c.mark)
  let stop := c.mark
  c.ensure 0
  let c := c.skipRun isBlank
  c.ensure 0
  let c := c.skipComment
  c.ensure 0
  if !isBreakOrEnd (c.peek 0) then throw (fault .missingCommentOrBreak c.mark)
  if isBreak (c.peek 0) then c.ensure 1
  return (⟨kind, start, stop⟩, c.skipBreak)

end Directive

end ConfigModules.Yaml
