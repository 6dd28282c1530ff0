import ConfigModules.Toml.Text
import ConfigModules.Toml.Scalar
/-!
Reading a TOML document: values, entries, and headers, line by line. Every entry goes to the table of
the latest header.
-/
namespace ConfigModules.Toml

/-- Reads the rest of an array after its bracket. `value` reads an element. -/
def arrayItems? (value : List Char → Option (Item × List Char)) : (steps : Nat) → List Char →
    Option (List Item × List Char)
  | 0, _ => none
  | steps + 1, cs =>
    match skipLines? false cs with
    | none => none
    | some (']' :: rest) => some ([], rest)
    | some cs => do
      let (item, rest) ← value cs
      match ← skipLines? false rest with
      | ',' :: rest =>
        let (items, rest) ← arrayItems? value steps rest
        some (item :: items, rest)
      | ']' :: rest => some ([item], rest)
      | _ => none

/-- An entry before it has its place. -/
structure Entry where
  key : Key
  item : Item

/-- Reads an entry: a key, an equals sign, and a value. -/
def entry? (value : List Char → Option (Item × List Char)) (cs : List Char) : Option (Entry × List Char) := do
  let (key, rest) ← key? cs
  let rest ← mark? '=' rest
  let (item, rest) ← value (skipBlanks rest)
  some (⟨key, item⟩, rest)

def Entry.addTo? (e : Entry) (table : Entries) : Option Entries :=
  addDotted? e.key.path e.key.name e.item table

/-- Reads the entries of a table in braces after those in `table`. -/
def inlineEntries? (value : List Char → Option (Item × List Char)) : (steps : Nat) → (table : Entries) →
    List Char → Option (Entries × List Char)
  | 0, _, _ => none
  | steps + 1, table, cs => do
    let (entry, rest) ← entry? value cs
    let table ← entry.addTo? table
    match skipBlanks rest with
    | ',' :: rest => inlineEntries? value steps table rest
    | '\x7d' :: rest => some (table, rest)
    | _ => none

/-- Reads a value in which so many levels of arrays and tables may nest. -/
def value? : (levels : Nat) → List Char → Option (Item × List Char)
  | levels, cs =>
    match cs with
    | [] => none
    | c :: rest =>
      if c = '\x22' ∨ c = '\x27' then (string? cs).map fun (s, rest) => (.string s, rest)
      else if c = '[' then
        match levels with
        | 0 => none
        | levels + 1 =>
          (arrayItems? (value? levels) rest.length.succ rest).map fun (items, rest) => (.array items, rest)
      else if c = '\x7b' then
        match levels with
        | 0 => none
        | levels + 1 =>
          match skipBlanks rest with
          | '\x7d' :: rest => some (.inlineTable [], rest)
          | rest =>
            (inlineEntries? (value? levels) rest.length.succ [] rest).map fun (table, rest) =>
              (.inlineTable table, rest)
      else scalarItem? cs

/-- The tables read so far and the table of the latest header. -/
structure Reading where
  tables : Entries := []
  current : List String := []

/-- Puts an entry into the table of the latest header. -/
def Reading.add? (r : Reading) (e : Entry) : Option Reading :=
  (changeTable? .passed (fun _ table => e.addTo? table) .header r.tables r.current).map
    fun tables => { r with tables }

/-- Reads a header after its first bracket. -/
def header? (r : Reading) (cs : List Char) : Option (Reading × List Char) :=
  match cs with
  | '[' :: rest => do
    let (key, rest) ← key? rest
    let rest ← mark? ']' rest
    let rest ← mark? ']' rest
    let tables ← openElement? key.path key.name r.tables
    some (⟨tables, key.path ++ [key.name]⟩, rest)
  | cs => do
    let (key, rest) ← key? cs
    let rest ← mark? ']' rest
    let tables ← openTable? key.path key.name r.tables
    some (⟨tables, key.path ++ [key.name]⟩, rest)

/-- Reads a line: a header, an entry, or nothing, each with a comment or without. -/
def line? (r : Reading) (cs : List Char) : Option (Reading × List Char) :=
  match skipBlanks cs with
  | '[' :: rest => do
    let (r, rest) ← header? r rest
    some (r, ← lineRest? rest)
  | cs =>
    match lineRest? cs with
    | some rest => some (r, rest)
    | none => do
      let (entry, rest) ← entry? (value? (depthLimit - 1)) cs
      some (← r.add? entry, ← lineRest? rest)

def lines? : (steps : Nat) → Reading → List Char → Option Reading
  | _, r, [] => some r
  | 0, _, _ :: _ => none
  | steps + 1, r, c :: cs => do
    let (r, rest) ← line? r (c :: cs)
    lines? steps r rest

/-- Reads a document. A byte order mark may come first. -/
def document? (text : String) : Option Entries :=
  let cs := match text.toList with
    | '\uFEFF' :: cs => cs
    | cs => cs
  (lines? cs.length {} cs).map Reading.tables

end ConfigModules.Toml
