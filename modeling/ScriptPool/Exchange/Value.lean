import ScriptPool.Exchange.Script
import ScriptPool.Guest.Machine
import ScriptPool.Host.Stock

/-!
# Canonical values as documents

Data is written as JSON, objects under `o` so that they cannot be mistaken for anything else, and
values with handles as objects that name what they are.  What is read back is equal for data;
reading a handle makes a new one, unless it is given a number under which it is shared.

Documents are read in a `Workspace`, which holds the world and the values that documents can refer
to by name.
-/

set_option autoImplicit false

namespace ScriptPool

/-- The world, and what documents can refer to in it. -/
structure Workspace where
  world : World := { language := .ofDocuments }
  /-- Values whose handles are shared, by number. -/
  shared : List (Int × Value) := []
  /-- Canonical values by name. -/
  values : List (String × Value) := []
  /-- Guest values by name. -/
  guests : List (String × GuestValue) := []
  /-- Guest values by their number in the document that is being read. -/
  numbered : List (Int × GuestValue) := []
  deriving Inhabited

/-- Work in a workspace. -/
abbrev Session := StateM Workspace

namespace Session

variable {α : Type}

/-- Lets the world change. -/
def act (t : Transition α) : Session α := do
  let space ← get
  let (a, world) := t.run space.world
  set { space with world }
  pure a

/-- Reads or changes one guest state. -/
def onState (s : Nat) (f : GuestState → α × GuestState) : Session α := act do
  let w ← get
  let (a, g) := f (w.state s)
  set (w.setState s g)
  pure a

/-- A guest state. -/
def stateOf (s : Nat) : Session GuestState := do
  pure ((← get).world.state s)

/-- Keeps a canonical value under a name. -/
def keep (name : String) (v : Value) : Session Unit :=
  modify fun space => { space with values := (name, v) :: space.values }

/-- The canonical value of a name. -/
def kept (name : String) : Session Value := do
  pure (((← get).values.lookup name).getD .nil)

/-- Keeps a guest value under a name. -/
def keepGuest (name : String) (v : GuestValue) : Session Unit :=
  modify fun space => { space with guests := (name, v) :: space.guests }

/-- The guest value of a name. -/
def keptGuest (name : String) : Session GuestValue := do
  pure (((← get).guests.lookup name).getD .nil)

/-- A new handle. -/
def newHandle : Session Handle := act do
  let w ← get
  let (h, w) := w.newHandle
  set w
  pure h

/-- A new handle of a function. -/
def newFunction (f : Callable) : Session Handle := act do
  let w ← get
  let (h, w) := w.newFunction f
  set w
  pure h

end Session

namespace Exchange

/-! ## Writing -/

/-- What a custom value holds. -/
def payload : Payload → List (String × Json)
  | .bytes data => [("bytes", .string (hexText data))]
  | .guest _ o => [("guest", .string o.typeName)]
  | .pair x y =>
      [("point", .array [.string (toString x.toInt), .string (toString y.toInt)])]
  | .token => []

mutual

/-- A canonical value. -/
def value : Value → Json
  | .nil => .null
  | .bool b => .bool b
  | .number x => number x
  | .string s => .string s
  | .array items => .array (values items)
  | .object fields => .object [("o", .object (namedValues fields))]
  | .function f => .object [("fn", .string f.name)]
  | .error e => .object [("err", .string e.message)]
  | .channel c => .object [("chan", .string c.id)]
  | .custom c => .object (("custom", .string c.tag) :: payload c.payload)

/-- Canonical values in turn. -/
def values : List Value → List Json
  | [] => []
  | v :: rest => value v :: values rest

/-- Fields in turn. -/
def namedValues : List (String × Value) → List (String × Json)
  | [] => []
  | (name, v) :: rest => (name, value v) :: namedValues rest

end

/-- What can be said about a value in short. -/
def outline (v : Value) : Json :=
  .object [("kind", .string v.kind.name), ("depth", natural v.depth)]

/-! ## Reading -/

/-- The stock function of a name; `arg` is what it is about, as a document and as a value. -/
def stockFunction (name : String) (arg : Json) (value : Value) : StockFunction :=
  match name with
  | "echo" => .echo
  | "first" => .first
  | "nargs" => .count
  | "sum" => .sum
  | "concat" => .concat
  | "kinds" => .kinds
  | "const" => .constant value
  | "counter" => .counter
  | "fail" => .fail arg.text
  | "fail_conv" => .failConversion
  | "error" => .error arg.text
  | "panic" => .panic arg.text
  | "panic_str" => .panic "static kaboom"
  | "panic_any" => .panicSilently
  | "nest" => .nest ((readNatural? arg).getD 0)
  | "call" => .call
  | _ => .nil

/-- Makes a value, but only once for a number under which it is shared. -/
def sharing (j : Json) (make : Session Value) : Session Value := do
  match (j.get? "h").bind readInteger? with
  | none => make
  | some h =>
      match (← get).shared.lookup h with
      | some v => pure v
      | none =>
          let v ← make
          modify fun space => { space with shared := (h, v) :: space.shared }
          pure v

/-- The payload that a document gives. -/
def readPayload (j : Json) : Payload :=
  match j.get? "bytes", (j.get "point").items with
  | some hex, _ => .bytes ((hexBytes? hex.text).getD ByteArray.empty)
  | none, [x, y] =>
      .pair (Int64.ofInt ((readInteger? x).getD 0)) (Int64.ofInt ((readInteger? y).getD 0))
  | none, _ => .token

/-- Reads a canonical value from a document that is nested at most so deeply. -/
def readValueWithin : Nat → Json → Session Value
  | 0, _ => pure .nil
  | _ + 1, .null => pure .nil
  | _ + 1, .bool b => pure (.bool b)
  | _ + 1, .integer n => pure (Value.ofInt n)
  | _ + 1, .float x => pure (.number x)
  | _ + 1, .string s => pure (.string s)
  | depth + 1, .array items => return .array (← items.mapM (readValueWithin depth))
  | depth + 1, .object members => do
      let j := Json.object members
      if let some fields := j.get? "o" then
        let pairs ← fields.members.mapM fun entry => do
          return (entry.1, ← readValueWithin depth entry.2)
        pure (Value.ofPairs pairs)
      else if let some name := j.get? "fn" then
        sharing j do
          let arg := j.get "arg"
          let v ← if (j.get "host").text = "const" then readValueWithin depth arg else pure .nil
          let f := stockFunction (j.get "host").text arg v
          return .function ⟨name.text, ← Session.newFunction (.host f.hostFunction)⟩
      else if let some message := j.get? "err" then
        let source := if (j.get "source").isTrue then some message.text else none
        pure (.error ⟨message.text, source⟩)
      else if let some id := j.get? "chan" then
        sharing j do return .channel ⟨id.text, ← Session.newHandle⟩
      else if let some tag := j.get? "custom" then
        sharing j do return .custom ⟨tag.text, readPayload j, ← Session.newHandle⟩
      else if let some name := j.get? "reg" then Session.kept name.text
      else if let some kind := j.get? "nest" then
        let isArray := kind.text == "a"
        let wrap (v : Value) : Value := if isArray then .array [v] else .object [("k", v)]
        let times := (readNatural? (j.get "depth")).getD 0
        if j.has "leaf" then
          return Nat.repeat wrap times (← readValueWithin depth (j.get "leaf"))
        else
          pure (Nat.repeat wrap (times - 1) (if isArray then .array [] else .object []))
      else pure (.number ((readNumber? j).getD 0.0))

/-- Reads a canonical value. -/
def readValue (j : Json) : Session Value := readValueWithin (Json.nestingLimit + 1) j

/-- Reads canonical values in turn. -/
def readValues (j : Json) : Session (List Value) := j.items.mapM readValue

end Exchange
end ScriptPool
