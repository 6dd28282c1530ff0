import ConfigModules.Text.Hex
/-!
The text parts of TOML: blanks, line ends, comments, the four forms of strings, and keys. A reader
returns what it read and the rest, or nothing if the text is malformed.
-/
namespace ConfigModules.Toml

def isBlank (c : Char) : Bool := c = ' ' || c = '\t'

/-- Tabs and all characters that are no ASCII control. They may stand in comments and strings. -/
def isText (c : Char) : Bool := c = '\t' || (0x20 ≤ c.toNat && c.toNat ≠ 0x7F)

def skipBlanks (cs : List Char) : List Char := cs.dropWhile isBlank

/-- Reads a line end: a line feed, with or without a carriage return before it. -/
def lineEnd? : List Char → Option (List Char)
  | '\n' :: cs => some cs
  | '\r' :: '\n' :: cs => some cs
  | _ => none

/-- Reads what may follow on a line: blanks, a comment, and the end of the line or the text. -/
def lineRest? (cs : List Char) : Option (List Char) :=
  let rest := match skipBlanks cs with
    | '#' :: comment => comment.dropWhile isText
    | rest => rest
  if rest.isEmpty then some [] else lineEnd? rest

def skipLines? : (inComment : Bool) → List Char → Option (List Char)
  | _, [] => some []
  | _, '\n' :: cs => skipLines? false cs
  | _, '\r' :: '\n' :: cs => skipLines? false cs
  | true, c :: cs => if isText c then skipLines? true cs else none
  | false, c :: cs =>
    if isBlank c then skipLines? false cs
    else if c = '#' then skipLines? true cs
    else some (c :: cs)

def scalar? (n : Nat) : Option Char := if h : n.isValidChar then some (Char.ofNatAux n h) else none

/-- Reads the character whose code is spelled by so many hexadecimal digits. -/
def hexScalar? (width : Nat) (cs : List Char) : Option (Char × List Char) :=
  if cs.length < width then none
  else
    ((cs.take width).foldlM (fun n c => (Hex.value? c).map (n * 16 + ·)) 0).bind fun n =>
      (scalar? n).map (·, cs.drop width)

def escape? : List Char → Option (Char × List Char)
  | 'b' :: cs => some ('\x08', cs)
  | 't' :: cs => some ('\t', cs)
  | 'n' :: cs => some ('\n', cs)
  | 'f' :: cs => some ('\x0c', cs)
  | 'r' :: cs => some ('\r', cs)
  | '\x22' :: cs => some ('\x22', cs)
  | '\\' :: cs => some ('\\', cs)
  | 'u' :: cs => hexScalar? 4 cs
  | 'U' :: cs => hexScalar? 8 cs
  | _ => none

/-- Reads the rest of a string on one line up to its quote. Each step takes a character at least, so
the length of the text is enough steps. -/
def lineString? (quote : Char) (escapes : Bool) : (steps : Nat) → (taken : List Char) → List Char →
    Option (String × List Char)
  | 0, _, _ => none
  | _ + 1, _, [] => none
  | steps + 1, taken, c :: cs =>
    if c = quote then some (String.ofList taken.reverse, cs)
    else if escapes && c = '\\' then
      match escape? cs with
      | some (e, rest) => lineString? quote escapes steps (e :: taken) rest
      | none => none
    else if isText c then lineString? quote escapes steps (c :: taken) cs
    else none

def skipSpace : List Char → List Char
  | '\n' :: cs => skipSpace cs
  | '\r' :: '\n' :: cs => skipSpace cs
  | c :: cs => if isBlank c then skipSpace cs else c :: cs
  | [] => []

/-- Reads the rest of a string of many lines up to its three quotes. One or two more quotes before
those belong to the text. Line ends become line feeds, and an escaped line end is dropped with all
space after it. -/
def linesString? (quote : Char) (escapes : Bool) : (steps : Nat) → (taken : List Char) → List Char →
    Option (String × List Char)
  | 0, _, _ => none
  | steps + 1, taken, cs =>
    match cs with
    | [] => none
    | c :: rest =>
      if c = quote then
        let run := (cs.takeWhile (· = quote)).length
        if run < 3 then linesString? quote escapes steps (c :: taken) rest
        else
          let extra := min run 5 - 3
          some (String.ofList (taken.reverse ++ List.replicate extra quote), cs.drop (3 + extra))
      else if escapes && c = '\\' then
        match lineEnd? (skipBlanks rest) with
        | some rest => linesString? quote escapes steps taken (skipSpace rest)
        | none =>
          match escape? rest with
          | some (e, rest) => linesString? quote escapes steps (e :: taken) rest
          | none => none
      else if isText c then linesString? quote escapes steps (c :: taken) rest
      else
        match lineEnd? cs with
        | some rest => linesString? quote escapes steps ('\n' :: taken) rest
        | none => none

/-- The text after a line end that directly follows the opening quotes. -/
def dropLineEnd (cs : List Char) : List Char := (lineEnd? cs).getD cs

def string? (cs : List Char) : Option (String × List Char) :=
  match cs with
  | '\x22' :: '\x22' :: '\x22' :: rest => linesString? '\x22' true rest.length.succ [] (dropLineEnd rest)
  | '\x22' :: rest => lineString? '\x22' true rest.length.succ [] rest
  | '\x27' :: '\x27' :: '\x27' :: rest => linesString? '\x27' false rest.length.succ [] (dropLineEnd rest)
  | '\x27' :: rest => lineString? '\x27' false rest.length.succ [] rest
  | _ => none

/-- The characters of keys without quotes. -/
def isBare (c : Char) : Bool := c.isAlphanum || c = '-' || c = '_'

/-- Reads one part of a key: bare, or a string on one line. -/
def keyPart? (cs : List Char) : Option (String × List Char) :=
  match cs with
  | '\x22' :: rest => lineString? '\x22' true rest.length.succ [] rest
  | '\x27' :: rest => lineString? '\x27' false rest.length.succ [] rest
  | cs =>
    let name := cs.takeWhile isBare
    if name.isEmpty then none else some (String.ofList name, cs.dropWhile isBare)

/-- Reads the parts of a dotted key with the blanks around each. -/
def keyParts? : (steps : Nat) → List Char → Option (List String × List Char)
  | 0, _ => none
  | steps + 1, cs =>
    match keyPart? (skipBlanks cs) with
    | none => none
    | some (part, rest) =>
      match skipBlanks rest with
      | '.' :: rest => (keyParts? steps rest).map fun (parts, rest) => (part :: parts, rest)
      | rest => some ([part], rest)

/-- How deep tables and arrays may nest, and how many parts a key may not have. -/
def depthLimit : Nat := 80

/-- A key: the tables it leads through and the name in the last of them. -/
structure Key where
  path : List String
  name : String
deriving DecidableEq, Repr

def key? (cs : List Char) : Option (Key × List Char) :=
  match keyParts? cs.length.succ cs with
  | none => none
  | some (parts, rest) =>
    if depthLimit ≤ parts.length then none
    else parts.getLast?.map fun name => (⟨parts.dropLast, name⟩, rest)

end ConfigModules.Toml
