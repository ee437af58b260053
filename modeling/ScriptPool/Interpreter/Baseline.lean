import ScriptPool.Guest.Machine

/-!
# Baselines

A baseline is a set of pictures of tables, taken when an interpreter is new: of the globals, of
every table that a global refers to, and of the metatable of strings.  Restoring a table takes away
what was added to it, puts back what is missing or differs, and gives it its metatable back; entries
that agree with the picture are left as they are.
-/

set_option autoImplicit false

namespace ScriptPool

/-- A table as it was. -/
structure TableImage where
  table : Nat
  contents : GuestTable
  deriving Inhabited

namespace TableImage

/-- A picture of a table. -/
def take (g : GuestState) (table : Nat) : TableImage := ⟨table, g.table table⟩

/-- A table with the entries that the picture has a value for. -/
def withoutStale (image : TableImage) (t : GuestTable) : GuestTable :=
  { t with
    entries := t.entries.filter fun entry => !(image.contents.find entry.1).isNil
    keyed := t.keyed.sublist List.filter_sublist }

/-- Puts an entry of the picture into a table, unless the table has a value there that agrees. -/
def putBack (t : GuestTable) (entry : GuestValue × GuestValue) : GuestTable :=
  if (t.find entry.1).agrees entry.2 then t else t.set entry.1 entry.2

/-- A table made to agree with the picture. -/
def restoreTable (image : TableImage) (t : GuestTable) : GuestTable :=
  image.contents.entries.foldl putBack
    { image.withoutStale t with metatable := image.contents.metatable }

/-- Makes the table of the picture agree with it. -/
def restore (image : TableImage) (g : GuestState) : GuestState :=
  g.modifyTable image.table image.restoreTable

end TableImage

/-- Pictures of the tables that a new interpreter consists of. -/
abbrev Baseline := List TableImage

namespace Baseline

/-- The tables among the values of some entries that are not in a list yet, in order and each once.
-/
def newTables (seen : List Nat) : List (GuestValue × GuestValue) → List Nat
  | [] => []
  | (_, .table id) :: rest =>
      if seen.contains id then newTables seen rest else id :: newTables (id :: seen) rest
  | _ :: rest => newTables seen rest

/-- The globals and the tables that they refer to. -/
def reachable (g : GuestState) : List Nat :=
  g.globals :: newTables [g.globals] (g.table g.globals).entries

/-- Makes every pictured table agree with its picture. -/
def restore (b : Baseline) (g : GuestState) : GuestState := b.foldl (fun g image => image.restore g) g

end Baseline

namespace World

/-- The chunk that asks for the metatable of strings. -/
def baselineChunk : String := "baseline"

/-- The metatable of strings, by way of the global function for that, if there is one. -/
def stringMetatable (s : Nat) : Transition (Except GuestFault (Option Nat)) := do
  let calls := callsWithin callDepth
  let chunk := some baselineChunk
  let found ← finish s do
    let g ← Execution.stateOf s
    let f ← Execution.index calls chunk s .unknown (.table g.globals) (.ofString "getmetatable")
    if f.isTruthy then
      let results ←
        Execution.callValue calls chunk s (.parameter "gm") f [.string ByteArray.empty]
      pure (Execution.first results)
    else pure f
  pure do
    match ← found with
    | .nil => .ok none
    | .table id => .ok (some id)
    | v => .error (.mismatch v.typeName "table" none)

/-- Pictures of the tables that a new interpreter consists of. -/
def takeBaseline (s : Nat) : Transition (Except GuestFault Baseline) := do
  let g := (← get).state s
  let tables := Baseline.reachable g
  let images := tables.map (TableImage.take g)
  match ← stringMetatable s with
  | .error f => pure (.error f)
  | .ok none => pure (.ok images)
  | .ok (some strings) =>
      if tables.contains strings then pure (.ok images)
      else
        let g := (← get).state s
        pure (.ok (images ++ [TableImage.take g strings]))

end World
end ScriptPool
