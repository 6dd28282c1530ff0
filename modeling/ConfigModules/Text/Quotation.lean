import ConfigModules.Text.Ranges
import ConfigModules.Text.HiddenTable
import ConfigModules.Text.Hex
/-!
Quotations of text in messages: double quotes, with escapes for the quote, the backslash, the usual
controls, and a code in braces for every other character that would not show by itself.
-/
namespace ConfigModules.Quotation

/-- Whether a character shows by itself in a quotation. -/
def shows (c : Char) : Bool :=
  let n := c.toNat
  if n < 0x80 then 0x20 ≤ n && n < 0x7F else !inRanges n HiddenTable.ranges

def escape (c : Char) : List Char :=
  if c = '\x00' then ['\\', '0']
  else if c = '\t' then ['\\', 't']
  else if c = '\r' then ['\\', 'r']
  else if c = '\n' then ['\\', 'n']
  else if c = '\\' then ['\\', '\\']
  else if c = '\x22' then ['\\', '\x22']
  else if shows c then [c]
  else '\\' :: 'u' :: '\x7b' :: Hex.digits c.toNat ++ ['\x7d']

def chars (s : List Char) : List Char := '\x22' :: s.flatMap escape ++ ['\x22']

def text (s : String) : String := String.ofList (chars s.toList)

end ConfigModules.Quotation
