import ScriptPool.Exchange.Value

/-!
# Guest values as documents

A document builds a guest value in a given state; a dump describes one.  Tables are written as lists
of entries, and values can be numbered and referred to, so that shared and circular structures can
be built and described.

A dump lists the entries of a table with the integer keys first and in order, and the others in the
order of their texts, so it does not depend on how the table is enumerated.
-/

set_option autoImplicit false

namespace ScriptPool
namespace Exchange

/-! ## Reading -/

section Reading

variable (c : Converter) (s : Nat)

/-- A new table. -/
def freshTable : Session Nat := Session.onState s fun g => g.newTable

/-- Puts an entry into a table. -/
def putEntry (id : Nat) (key v : GuestValue) : Session Unit :=
  Session.onState s fun g => ((), g.rawSet id key v)

/-- Gives a value a number. -/
def giveNumber (j : Json) (v : GuestValue) : Session Unit :=
  match (j.get? "id").bind readInteger? with
  | some n => modify fun space => { space with numbered := (n, v) :: space.numbered }
  | none => pure ()

/-- A table inside `n` others, under the same key each time: the innermost one. -/
def descend (key : GuestValue) : Nat → Nat → Session Nat
  | 0, id => pure id
  | n + 1, id => do
      let inner ← freshTable s
      putEntry s id key (.table inner)
      descend key n inner

/-- Reads a guest value from a document that is nested at most so deeply. -/
def readGuestWithin : Nat → Json → Session GuestValue
  | 0, _ => pure .nil
  | _ + 1, .null => pure .nil
  | _ + 1, .bool b => pure (.boolean b)
  | _ + 1, .integer n => pure (.ofInt n)
  | _ + 1, .float x => pure (.float x)
  | _ + 1, .string text => pure (.ofString text)
  | depth + 1, .array items => do
      let values ← items.mapM (readGuestWithin depth)
      Session.onState s fun g =>
        let (id, g) := g.newTable (.ofSequence values)
        (.table id, g)
  | depth + 1, .object members => do
      let j := Json.object members
      let v : GuestValue ←
        if let some n := j.get? "int" then pure (.ofInt ((readInteger? n).getD 0))
        else if let some x := j.get? "float" then pure (.float ((readNumber? x).getD 0.0))
        else if let some hex := j.get? "bytes" then
          pure (.string ((hexBytes? hex.text).getD ByteArray.empty))
        else if let some entries := j.get? "t" then do
          let id ← freshTable s
          giveNumber j (.table id)
          let _ ← entries.items.mapM fun entry => do
            match entry with
            | .array [key, v] =>
                let key ← readGuestWithin depth key
                let v ← readGuestWithin depth v
                putEntry s id key v
            | _ => pure ()
          match ← readGuestWithin depth (j.get "meta") with
          | .table m => Session.onState s fun g => ((), g.setMetatable id (some m))
          | _ => pure ()
          pure (.table id)
        else if let some n := j.get? "ref" then do
          let n := (readInteger? n).getD 0
          pure (((← get).numbered.lookup n).getD .nil)
        else if let some name := j.get? "gf" then
          match routine? name.text with
          | some r => Session.onState s fun g =>
              let (id, g) := g.newFunction (.routine r)
              (.function id, g)
          | none => pure .nil
        else if (j.get? "thread").isSome then Session.onState s GuestState.idleThread
        else if let some n := j.get? "light" then
          pure (.object (.lightUserdata ((readNatural? n).getD 0)))
        else if (j.get? "udata").isSome then Session.onState s fun g => g.newUserdata .foreign
        else if let some message := j.get? "error" then pure (.fault (.runtime message.text))
        else if let some v := j.get? "from" then do
          match ← Session.act (World.fromValue c s (← readValue v)) with
          | .ok v => pure v
          | .error _ => pure .nil
        else if let some name := j.get? "reg" then Session.keptGuest name.text
        else if let some kind := j.get? "chain" then do
          let key : GuestValue := if kind.text = "a" then .ofInt 1 else .ofString "k"
          let outermost ← freshTable s
          let innermost ← descend s key ((readNatural? (j.get "depth")).getD 0 - 1) outermost
          let leaf ← readGuestWithin depth (j.get "leaf")
          putEntry s innermost key (if (j.get "cycle").isTrue then .table outermost else leaf)
          pure (.table outermost)
        else pure .nil
      giveNumber j v
      pure v

/-- Reads a guest value. -/
def readGuest (j : Json) : Session GuestValue := do
  modify fun space => { space with numbered := [] }
  readGuestWithin c s (Json.nestingLimit + 1) j

end Reading

/-! ## Dumping -/

/-- The properties of a carried value that scripts can read. -/
def carried (held : Value) : Json :=
  let property (name : String) : Json :=
    match GuestState.property held (.ofString name) with
    | some (.string bytes) => .string (Text.decodeLossy bytes)
    | _ => .null
  .object [("opaque", property "kind"), ("held", .string held.kind.name),
    ("message", property "message"), ("tag", property "tag"), ("text", .string held.text)]

/-- Visits the entries of a table: what is written for each key and value. -/
def dumpEntries (dump : GuestValue → StateM (List Nat) Json) :
    List (GuestValue × GuestValue) → StateM (List Nat) (List Json)
  | [] => pure []
  | (key, v) :: rest => do
      let k ← dump key
      let v ← dump v
      return .array [k, v] :: (← dumpEntries dump rest)

/-- Visits the entries of a table whose keys have been written already. -/
def dumpValues (dump : GuestValue → StateM (List Nat) Json) :
    List (Json × GuestValue) → StateM (List Nat) (List Json)
  | [] => pure []
  | (key, v) :: rest => do
      let v ← dump v
      return .array [key, v] :: (← dumpValues dump rest)

/-- Writes a table: the integer keys first, then the others by their texts. -/
def dumpTable (dump : GuestValue → StateM (List Nat) Json) (t : GuestTable) :
    StateM (List Nat) Json := do
  let index : GuestValue × GuestValue → Option Int
    | (.integer n, _) => some n.toInt
    | _ => none
  let numbered := (t.entries.filter fun entry => (index entry).isSome).mergeSort
    fun a b => (index a).getD 0 ≤ (index b).getD 0
  let numbered ← dumpEntries dump numbered
  let others ← (t.entries.filter fun entry => (index entry).isNone).mapM fun entry => do
    return (← dump entry.1, entry.2)
  let others ← dumpValues dump
    (others.mergeSort fun a b => a.1.compact ≤ b.1.compact)
  let entries := [("t", Json.array (numbered ++ others))]
  match t.metatable with
  | none => pure (.object entries)
  | some m => return .object (("meta", ← dump (.table m)) :: entries)

/-- Describes a guest value.  The state is the list of the tables met so far; `depth` bounds how
many tables can be inside each other. -/
def dumpWithin (g : GuestState) : Nat → GuestValue → StateM (List Nat) Json
  | _, .nil => pure .null
  | _, .boolean b => pure (.bool b)
  | _, .integer n => pure (.object [("int", .string (toString n.toInt))])
  | _, .float x =>
      pure (.object [("float", .string (if x.isNaN then "nan" else bitsText x))])
  | _, .string bytes =>
      pure (match String.fromUTF8? bytes with
        | some text => .string text
        | none => .object [("bytes", .string (hexText bytes))])
  | _, .function _ => pure (.object [("type", .string "function")])
  | _, .fault f => pure (.object [("error", .string f.message)])
  | _, .object o =>
      pure (match g.carried? o with
        | some held => carried held
        | none => .object [("type", .string o.typeName)])
  | 0, .table _ => pure .null
  | depth + 1, .table id => do
      match (← get).idxOf? id with
      | some i => pure (.object [("ref", natural i)])
      | none =>
          modify (· ++ [id])
          dumpTable (dumpWithin g depth) (g.table id)

/-- Describes a guest value. -/
def dump (g : GuestState) (v : GuestValue) : Json :=
  ((dumpWithin g (g.tables.size + 1) v).run []).1

end Exchange
end ScriptPool
