import ScriptPool.Toml.Grammar

/-!
# What the statements of a TOML document add up to

Statements may mention tables in any order, but not contradict each other: a key is given once, a
table has one header, dotted keys do not reach into tables that have a header, and an inline table
is closed.  `Toml.parse?` builds the document and refuses contradictions.

A table under construction remembers how it came into being (`Origin`), because that decides who may
still add to it.  The table whose header was read last is kept apart (`Build.current`) until the
next header, and is put at its place then.
-/

set_option autoImplicit false

namespace ScriptPool
namespace Toml

/-- How a table under construction came into being. -/
inductive Origin where
  /-- It has a header, or is the document itself. -/
  | header
  /-- It was only mentioned on the way to a table with a header. -/
  | mentioned
  /-- It was made by a dotted key. -/
  | dotted
  deriving DecidableEq

/-- A value under construction. -/
inductive Tree where
  | leaf (item : Item)
  | table (origin : Origin) (entries : List (String × Tree))
  | tables (elements : List (List (String × Tree)))

instance : Inhabited Tree := ⟨.leaf default⟩

/-- The entries of a table under construction. -/
abbrev Trees := List (String × Tree)

/-- Looks up a key. -/
def Trees.get? (trees : Trees) (key : String) : Option Tree :=
  (trees.find? fun entry => entry.1 == key).map (·.2)

/-- Puts a value under a key, in place or at the end. -/
def Trees.set (trees : Trees) (key : String) (tree : Tree) : Trees :=
  if trees.any (·.1 == key) then trees.map fun entry => if entry.1 == key then (key, tree) else entry
  else trees ++ [(key, tree)]

/-- Takes a key away. -/
def Trees.erase (trees : Trees) (key : String) : Trees := trees.filter (·.1 != key)

/-- Changes the table at the end of a path of headers, making the tables on the way where they are
missing.  The last element of an array of tables stands for the array. -/
def underHeader (path : Path) (change : Trees → Option Trees) (trees : Trees) : Option Trees :=
  match path with
  | [] => change trees
  | key :: rest =>
      match trees.get? key with
      | none => (underHeader rest change []).map fun t => trees.set key (.table .mentioned t)
      | some (.table origin t) =>
          (underHeader rest change t).map fun t => trees.set key (.table origin t)
      | some (.tables elements) =>
          match elements.getLast? with
          | none => none
          | some t =>
              (underHeader rest change t).map fun t =>
                trees.set key (.tables (elements.dropLast ++ [t]))
      | some (.leaf _) => none

/-- Adds a value at the end of a dotted path.  The tables on the way must have been made by dotted
keys or be merely mentioned, and the last of them by dotted keys. -/
def addDotted (path : Path) (item : Item) (trees : Trees) : Option Trees :=
  match path with
  | [] => none
  | [key] => if trees.any (·.1 == key) then none else some (trees.set key (.leaf item))
  | key :: rest =>
      match trees.get? key with
      | none => (addDotted rest item []).map fun t => trees.set key (.table .dotted t)
      | some (.table .dotted t) =>
          (addDotted rest item t).map fun t => trees.set key (.table .dotted t)
      | some (.table .mentioned t) =>
          if rest.length = 1 then none
          else (addDotted rest item t).map fun t => trees.set key (.table .mentioned t)
      | _ => none

mutual

/-- The finished value of a tree. -/
def Tree.toItem : Tree → Item
  | .leaf item => item
  | .table _ entries => .table (toEntries entries)
  | .tables elements => .array (toTables elements)

/-- The finished entries of a table. -/
def toEntries : List (String × Tree) → Entries
  | [] => []
  | (key, tree) :: rest => (key, tree.toItem) :: toEntries rest

/-- The finished elements of an array of tables. -/
def toTables : List (List (String × Tree)) → List Item
  | [] => []
  | entries :: rest => .table (toEntries entries) :: toTables rest

end

mutual

/-- The value that a term stands for; inline tables must not contradict themselves. -/
def Term.toItem? : Term → Option Item
  | .string s => some (.string s)
  | .integer n => some (.integer n)
  | .float x => some (.float x)
  | .boolean b => some (.boolean b)
  | .datetime => some .datetime
  | .array items => (termsToItems items).map .array
  | .inline entries => (inlineEntries [] entries).map fun trees => .table (toEntries trees)

/-- The values of array elements. -/
def termsToItems : List Term → Option (List Item)
  | [] => some []
  | term :: rest => do
      let item ← term.toItem?
      let items ← termsToItems rest
      some (item :: items)

/-- The entries of an inline table, added to those read so far. -/
def inlineEntries (sofar : Trees) : List (Path × Term) → Option Trees
  | [] => some sofar
  | (path, term) :: rest => do
      let item ← term.toItem?
      let trees ← addDotted path item sofar
      inlineEntries trees rest

end

/-- The document so far, and the table that statements are being added to. -/
structure Build where
  root : Trees
  /-- The path of the current table, and whether it is an element of an array of tables. -/
  path : Path
  isElement : Bool
  current : Trees

/-- Puts the current table at its place. -/
def Build.finish? (b : Build) : Option Trees :=
  match b.path.getLast? with
  | none => some b.current
  | some key =>
      underHeader b.path.dropLast (fun trees =>
        if b.isElement then
          match trees.get? key with
          | none => some (trees.set key (.tables [b.current]))
          | some (.tables elements) => some (trees.set key (.tables (elements ++ [b.current])))
          | _ => none
        else if trees.any (·.1 == key) then none
        else some (trees.set key (.table .header b.current))) b.root

/-- The table that a header makes current: a new one, or one that was only mentioned so far, which
leaves its old place. -/
def openTable? (path : Path) (root : Trees) : Option Build :=
  match path.getLast? with
  | none => none
  | some key => do
      let found ← lookup path.dropLast key root
      match found with
      | none => some ⟨root, path, false, []⟩
      | some (.table .mentioned t) =>
          let root ← underHeader path.dropLast (fun trees => some (trees.erase key)) root
          some ⟨root, path, false, t⟩
      | some _ => none
where
  /-- What stands at a path: `none` when the path runs into a value. -/
  lookup : Path → String → Trees → Option (Option Tree)
  | [], key, trees => some (trees.get? key)
  | step :: rest, key, trees =>
      match trees.get? step with
      | none => some none
      | some (.table _ t) => lookup rest key t
      | some (.tables elements) =>
          match elements.getLast? with
          | none => none
          | some t => lookup rest key t
      | some (.leaf _) => none

/-- Takes one statement into the document. -/
def Build.add? (b : Build) : Statement → Option Build
  | .entry path term => do
      let item ← term.toItem?
      let current ← addDotted path item b.current
      some { b with current }
  | .table path => do
      let root ← b.finish?
      openTable? path root
  | .element path => do
      let root ← b.finish?
      match path.getLast? with
      | none => none
      | some key =>
          let root ← underHeader path.dropLast (fun trees =>
            match trees.get? key with
            | none => some (trees.set key (.tables []))
            | some (.tables _) => some trees
            | _ => none) root
          some ⟨root, path, true, []⟩

/-- Reads a document. -/
def parse? (text : String) : Option Entries := do
  let statements ← statements? text
  let build ← statements.foldlM Build.add? ⟨[], [], false, []⟩
  let root ← build.finish?
  some (toEntries root)

end Toml
end ScriptPool
