import ConfigModules.Double.Basic
/-!
TOML documents as data, and how tables grow while a document is read. A table remembers how it came
to be: only one that was merely passed by may still get a header, and only one that dotted keys made
takes more dotted keys.
-/
namespace ConfigModules.Toml

inductive Origin where
  /-- Named by a header of its own, an element of an array of tables, or the document. -/
  | header
  /-- Passed by a header that names a table inside. -/
  | passed
  /-- Passed by a dotted key. -/
  | dotted
deriving DecidableEq, Repr

inductive Item where
  | string (text : String)
  | integer (n : Int)
  | float (x : Double)
  | boolean (b : Bool)
  /-- A date, a time, or both; nothing is kept of it. -/
  | dateTime
  | array (items : List Item)
  /-- A table in braces. It is complete as it stands. -/
  | inlineTable (entries : List (String × Item))
  | table (origin : Origin) (entries : List (String × Item))
  /-- An array of tables that each have a header, the latest one apart and first. -/
  | tables (latest : List (String × Item)) (earlier : List (List (String × Item)))
deriving Repr

abbrev Entries := List (String × Item)

/-- Sets the item of a key, at its place if it has one. -/
def setItem (key : String) (item : Item) : Entries → Entries
  | [] => [(key, item)]
  | (k, i) :: rest => if k = key then (key, item) :: rest else (k, i) :: setItem key item rest

/-- Changes the table that names lead to. Tables that are missing on the way are made, with the
origin `made`. An array of tables stands for its latest one. Dotted keys do not enter a table that
has a header. -/
def changeTable? (made : Origin) (change : Origin → Entries → Option Entries) :
    Origin → Entries → List String → Option Entries
  | origin, entries, [] => change origin entries
  | _, entries, name :: names =>
    match entries.lookup name with
    | none => (changeTable? made change made [] names).map fun below =>
        setItem name (.table made below) entries
    | some (.table origin below) =>
      if made = .dotted ∧ origin = .header then none
      else (changeTable? made change origin below names).map fun below =>
        setItem name (.table origin below) entries
    | some (.tables latest earlier) =>
      (changeTable? made change .header latest names).map fun latest =>
        setItem name (.tables latest earlier) entries
    | some _ => none

def addItem? (key : String) (item : Item) (entries : Entries) : Option Entries :=
  if (entries.lookup key).isSome then none else some (entries ++ [(key, item)])

/-- Adds an entry under a dotted key. Past the first part it goes into a table that dotted keys
made, and nowhere else. -/
def addDotted? (names : List String) (key : String) (item : Item) (entries : Entries) : Option Entries :=
  changeTable? .dotted
    (fun origin table =>
      if names.isEmpty || origin = .dotted then addItem? key item table else none)
    .header entries names

/-- Gives a table its header. -/
def openTable? (names : List String) (key : String) (document : Entries) : Option Entries :=
  changeTable? .passed
    (fun _ table =>
      match table.lookup key with
      | none => some (setItem key (.table .header []) table)
      | some (.table .passed below) => some (setItem key (.table .header below) table)
      | some _ => none)
    .header document names

/-- Begins the next table of an array of tables. -/
def openElement? (names : List String) (key : String) (document : Entries) : Option Entries :=
  changeTable? .passed
    (fun _ table =>
      match table.lookup key with
      | none => some (setItem key (.tables [] []) table)
      | some (.tables latest earlier) => some (setItem key (.tables [] (latest :: earlier)) table)
      | some _ => none)
    .header document names

end ConfigModules.Toml
