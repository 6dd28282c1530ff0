import ConfigModules.Yaml.Cursor
/-!
The blanks and line breaks between two words of a flow scalar, and what they fold into: blanks on
one line stay, a single break becomes a space, further breaks stay.
-/
namespace ConfigModules.Yaml

structure Gap where
  /-- The blanks before the first break, latest first. -/
  blanks : List Char
  /-- Whether a line has ended. -/
  broken : Bool
  /-- The first break, unless it was escaped. -/
  lead : Option Char
  /-- The breaks after the first, latest first. -/
  trail : List Char
deriving Repr

namespace Gap

def empty : Gap := ⟨[], false, none, []⟩

/-- The gap after an escaped line break, which stands for nothing. -/
def escaped : Gap := ⟨[], true, none, []⟩

def addBreak (g : Gap) (b : Char) : Gap :=
  if g.broken then { g with trail := b :: g.trail } else ⟨[], true, some b, []⟩

/-- Blanks count only before the first break. -/
def addBlank (g : Gap) (c : Char) : Gap :=
  if g.broken then g else { g with blanks := c :: g.blanks }

/-- What the gap stands for, latest character first. -/
def reversedText (g : Gap) : List Char :=
  if !g.broken then g.blanks
  else match g.lead with
    | none => g.trail
    | some '\n' => if g.trail.isEmpty then [' '] else g.trail
    | some b => g.trail ++ [b]

/-- Reads blanks and breaks. With `indent`, a tab left of it on a new line stops the reading. -/
def read (indent : Option Int) : List Char → Mark → Gap → Gap × List Char × Mark × Bool
  | '\r' :: '\n' :: cs, m, g => read indent cs (m.nextLine 2) (g.addBreak '\n')
  | c :: cs, m, g =>
    if isBlank c then
      if g.broken && c = '\t' && indent.any (fun i => (m.column : Int) < i) then (g, c :: cs, m, true)
      else read indent cs (m.next c) (g.addBlank c)
    else if isBreak c then read indent cs (m.nextLine c.utf8Size) (g.addBreak (breakText c))
    else (g, c :: cs, m, false)
  | [], m, g => (g, [], m, false)

end Gap

/-- The flow scalar under construction and where its reading stands. -/
structure Folded where
  /-- The text so far, latest character first. -/
  text : List Char
  /-- The gap after the text, dropped when the scalar ends. -/
  gap : Gap
  stop : Mark
  cursor : Cursor

end ConfigModules.Yaml
