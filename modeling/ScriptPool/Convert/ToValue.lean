import ScriptPool.Convert.Basic
import ScriptPool.Guest.Numeral
import ScriptPool.Shape

/-!
# From guest values to canonical values

Tables are walked with the list of the tables on the way from the root, so a table that several
others share converts once for each, and only a table inside itself is refused.  What remains of the
depth limit goes down by one with every table entered, which is also why the walk ends.

An empty table is an object unless its metatable marks it as an array.  The keys of other tables
decide, by `Shape.ofKeys`, whether they are arrays; a key becomes a field name only if no other key
of the table has that name.
-/

set_option autoImplicit false

namespace ScriptPool

/-- The key as the classification sees it.  A float counts as an index if it is integral and small
enough to be exact. -/
def GuestValue.keyKind : GuestValue → KeyKind
  | .integer n => .index n.toInt
  | .float x =>
      match Decimal.integer? x with
      | some n => if n.natAbs < 9000000000000000 then .index n else .name
      | none => .name
  | _ => .name

/-- The field name of a key. -/
def GuestValue.fieldName : GuestValue → Except ConvertError String
  | .string bytes => .ok (Text.decodeLossy bytes)
  | .integer n => .ok (toString n.toInt)
  | .float x => .ok (Decimal.Layout.plain.write x)
  | .boolean b => .ok (if b then "true" else "false")
  | v => .error (.unsupported (v.typeName ++ " as object key"))

/-- Does the metatable of a table mark it as an array? -/
def GuestState.isMarkedArray (g : GuestState) (t : GuestTable) : Except GuestFault Bool :=
  match t.metatable with
  | none => .ok false
  | some m =>
      match ((g.table m).field "__shape").toHostString? with
      | .ok shape => .ok (shape == some "array")
      | .error f => .error f

namespace Converter

/-- Hands a function of a guest state to the host. -/
def wrapFunction (c : Converter) (s function : Nat) : Conversion Value := do
  let w ← get
  let g : GuestFunction := ⟨s, function, c, (w.state s).epoch⟩
  let (handle, w) := w.newFunction (.guest g)
  set w
  pure (.function ⟨"anonymous", handle⟩)

/-- A custom value with a fresh payload. -/
def newCustom (tag : String) (payload : Payload) : Conversion Value := do
  let handle ← Conversion.newHandle
  pure (.custom ⟨tag, payload, handle⟩)

/-- Converts the entries of an array one after the other, each with the place of its key. -/
def placedItems (convert : GuestValue → Conversion Value) :
    List (GuestValue × GuestValue) → Conversion (List (Nat × Value))
  | [] => pure []
  | (key, v) :: rest => do
      match key.keyKind with
      | .index i => do
          let item ← convert v
          let items ← placedItems convert rest
          pure (((i - 1).toNat, item) :: items)
      | .name => placedItems convert rest

/-- Converts the entries of an object one after the other. -/
def namedFields (convert : GuestValue → Conversion Value) (sofar : Fields) :
    List (GuestValue × GuestValue) → Conversion Fields
  | [] => pure sofar
  | (key, v) :: rest => do
      let name ← (key.fieldName : Except ConvertError String)
      if sofar.contains name then
        throw (.unsupported ("duplicate object key \"" ++ name ++ "\""))
      let field ← convert v
      namedFields convert (Fields.insert name field sofar) rest

/-- Converts the entries of a table that is not empty. -/
def entriesToValue (convert : GuestValue → Conversion Value)
    (entries : List (GuestValue × GuestValue)) : Conversion Value :=
  match Shape.ofKeys (entries.map (·.1.keyKind)) with
  | .array length => do
      let placed ← placedItems convert entries
      let slots := placed.foldl (fun slots item => slots.setIfInBounds item.1 item.2)
        (Array.replicate length Value.nil)
      pure (.array slots.toList)
  | .object => do
      let fields ← namedFields convert [] entries
      pure (.object fields)

/-- Converts a table.  `remaining` is what is left of the depth limit, `path` the tables from the
root down to here, and `descend` converts the values in it. -/
def tableToValue (c : Converter) (s : Nat) (remaining : Nat) (path : List Nat)
    (descend : List Nat → GuestValue → Conversion Value) (id : Nat) : Conversion Value := do
  if path.contains id then throw .circular
  if remaining = 0 then throw (.tooDeep c.maxDepth)
  let g := (← get).state s
  let t := g.table id
  if t.entries.isEmpty then
    let marked ← Conversion.ofGuest (g.isMarkedArray t)
    pure (if marked then .array [] else .object [])
  else entriesToValue (descend (id :: path)) t.entries

/-- Converts a value other than a table. -/
def leafToValue (c : Converter) (s : Nat) (v : GuestValue) : Conversion Value :=
  match v with
  | .nil => pure .nil
  | .boolean b => pure (.bool b)
  | .integer n => pure (.number (Float.ofInt n.toInt))
  | .float x => pure (.number x)
  | .string bytes =>
      match String.fromUTF8? bytes with
      | some text => pure (.string text)
      | none => newCustom "bytes" (.bytes bytes)
  | .function id => c.wrapFunction s id
  | .object (.userdata id) => do
      match ((← get).state s).carried? (.userdata id) with
      | some held => pure held
      | none =>
          match ← offer s v c.codecs with
          | some (tag, payload) => newCustom tag payload
          | none => newCustom "userdata" (.guest s (.userdata id))
  | .object o => newCustom o.typeName (.guest s o)
  | .fault f => pure (.error ⟨f.message, none⟩)
  | .table _ => pure .nil

/-- Converts a value inside the tables of `path`, of which `remaining` more may be entered. -/
def toValueAt (c : Converter) (s : Nat) : Nat → List Nat → GuestValue → Conversion Value
  | remaining, path, .table id => do
      match ← offer s (.table id) c.codecs with
      | some (tag, payload) => newCustom tag payload
      | none =>
          match remaining with
          | 0 => c.tableToValue s 0 path (fun _ _ => pure .nil) id
          | left + 1 => c.tableToValue s (left + 1) path (c.toValueAt s left) id
  | _, _, v => c.leafToValue s v

/-- Converts a value of a guest state. -/
def toValue (c : Converter) (s : Nat) (v : GuestValue) : Conversion Value :=
  c.toValueAt s c.maxDepth [] v

end Converter
end ScriptPool
