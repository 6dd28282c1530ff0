import ConfigModules.Yaml.Fault
/-!
A place in the characters of a source. The reader takes the source in blocks of bytes and refuses a
whole block that holds a forbidden character, so the characters end before that block and every
later look-ahead reports the fault.
-/
namespace ConfigModules.Yaml

/-- What a reader sees past the end. A source never holds it, because it is forbidden there. -/
def endChar : Char := '\x00'

def byteOrderMark : Char := '\ufeff'

def isBlank (c : Char) : Bool := c = ' ' || c = '\t'

/-- The five line breaks of YAML 1.1. -/
def isBreak (c : Char) : Bool :=
  c = '\n' || c = '\r' || c = '\x85' || c = '\u2028' || c = '\u2029'

/-- What a line break stands for in the text of a scalar: only the two separators are kept. -/
def breakText (c : Char) : Char := if c = '\u2028' ∨ c = '\u2029' then c else '\n'

def isEnd (c : Char) : Bool := c = endChar

def isBreakOrEnd (c : Char) : Bool := isBreak c || isEnd c

def isBlankOrEnd (c : Char) : Bool := isBlank c || isBreakOrEnd c

/-- A character of names: ASCII letters, digits, underscore and dash. -/
def isWordChar (c : Char) : Bool := c.isAlphanum || c = '_' || c = '-'

/-- The characters that a source may hold. -/
def isAllowed (c : Char) : Bool :=
  let n := c.toNat
  n = 0x09 || n = 0x0A || n = 0x0D || (0x20 ≤ n && n ≤ 0x7E) || n = 0x85
    || (0xA0 ≤ n && n ≤ 0xD7FF) || (0xE000 ≤ n && n ≤ 0xFFFD) || 0x10000 ≤ n

namespace Mark

/-- The place after a character that is no line break. -/
def next (m : Mark) (c : Char) : Mark := ⟨m.index + c.utf8Size, m.line, m.column + 1⟩

/-- The start of the next line, after a break of `n` bytes. -/
def nextLine (m : Mark) (n : Nat) : Mark := ⟨m.index + n, m.line + 1, 0⟩

end Mark

structure Cursor where
  rest : List Char
  mark : Mark
  /-- The offset of a forbidden character in the block after `rest`. -/
  forbidden : Option Nat
deriving Repr

namespace Cursor

/-- How many bytes the reader takes at a time. -/
def blockSize : Nat := 16384

/-- Walks the source block by block: the characters of the blocks before, latest first, those of
this block, the offset of its first byte and the present offset. -/
def readBlocks : List Char → List Char → List Char → Nat → Nat → List Char × Option Nat
  | [], before, block, _, _ => ((block ++ before).reverse, none)
  | c :: cs, before, block, first, offset =>
    if offset + c.utf8Size ≤ first + blockSize then
      if isAllowed c then readBlocks cs before (c :: block) first (offset + c.utf8Size)
      else (before.reverse, some offset)
    else if isAllowed c then readBlocks cs (block ++ before) [c] offset (offset + c.utf8Size)
    else ((block ++ before).reverse, some offset)

def ofChars (source : List Char) : Cursor :=
  let (rest, forbidden) := readBlocks source [] [] 0 0
  ⟨rest, Mark.start, forbidden⟩

/-- The character `n` places ahead. -/
def peek (c : Cursor) (n : Nat) : Char := c.rest.getD n endChar

/-- Asks for `n + 1` characters ahead, where fewer are fine at the end of a sound source. -/
def ensure (c : Cursor) (n : Nat) : Except Fault Unit :=
  match c.forbidden with
  | none => .ok ()
  | some offset =>
    if (c.rest.drop n).isEmpty then .error ⟨.controlCharacter offset, Mark.start, none⟩ else .ok ()

def skip (c : Cursor) : Cursor :=
  match c.rest with
  | [] => c
  | x :: xs => { c with rest := xs, mark := c.mark.next x }

def skipMany (c : Cursor) : Nat → Cursor
  | 0 => c
  | n + 1 => c.skip.skipMany n

/-- Steps over a line break, if one stands here, and gives the character that stands for it. -/
def takeBreak (c : Cursor) : Option Char × Cursor :=
  match c.rest with
  | '\r' :: '\n' :: xs => (some '\n', { c with rest := xs, mark := c.mark.nextLine 2 })
  | x :: xs =>
    if isBreak x then
      (some (breakText x), { c with rest := xs, mark := c.mark.nextLine x.utf8Size })
    else (none, c)
  | [] => (none, c)

def skipBreak (c : Cursor) : Cursor := c.takeBreak.2

/-- The longest run of characters with a property that no line break has: the characters before,
latest first, what is left and the place there. -/
def runFrom (p : Char → Bool) : List Char → Mark → List Char → List Char × List Char × Mark
  | [], m, taken => (taken.reverse, [], m)
  | x :: xs, m, taken =>
    if p x then runFrom p xs (m.next x) (x :: taken) else (taken.reverse, x :: xs, m)

def takeRun (c : Cursor) (p : Char → Bool) : List Char × Cursor :=
  let (taken, rest, mark) := runFrom p c.rest c.mark []
  (taken, { c with rest, mark })

def skipRun (c : Cursor) (p : Char → Bool) : Cursor := (c.takeRun p).2

/-- Steps over a comment, if one starts here, up to the end of the line. -/
def skipComment (c : Cursor) : Cursor :=
  if c.peek 0 = '#' then c.skipRun (!isBreak ·) else c

/-- Whether a document indicator, three of `x` and a blank or an end, stands at a line start. -/
def atIndicator (c : Cursor) (x : Char) : Bool :=
  c.mark.column = 0 && c.peek 0 = x && c.peek 1 = x && c.peek 2 = x && isBlankOrEnd (c.peek 3)

/-- Whether a document starts or ends here. -/
def atDocumentBoundary (c : Cursor) : Bool := c.atIndicator '-' || c.atIndicator '.'

end Cursor

end ConfigModules.Yaml
