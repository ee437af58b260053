import ScriptPool.Convert.Basic

/-!
# From canonical values to guest values

Data becomes scalars and tables.  A number becomes an integer of the guest if it stands for one, and
an empty array gets the metatable that marks it as an array, since a table without entries does not
show what it is.  What has no structural form is carried in userdata and comes back as it was.

A function of the guest that is handed back to its own state while it is still good is given back as
itself.  Any other function becomes a trampoline.
-/

set_option autoImplicit false

namespace ScriptPool

/-- The guest form of a number. -/
def GuestValue.ofNumber (x : Float) : GuestValue :=
  match Decimal.integer? x with
  | some n => if -(2 ^ 63) ≤ n ∧ n < 2 ^ 63 then .ofInt n else .float x
  | none => .float x

namespace Converter

/-- The guest form of a function. -/
def functionFromValue (c : Converter) (s : Nat) (f : FunctionValue) : Conversion GuestValue := do
  let w ← get
  match w.guestFunction? f with
  | some g =>
      if g.state = s ∧ w.isLive g then pure (.function g.function) else trampoline
  | none => trampoline
where
  /-- A new function of the guest that calls the function. -/
  trampoline : Conversion GuestValue := do
    let id ← Conversion.onState s fun g => g.newFunction (.trampoline f c)
    pure (.function id)

/-- Carries a value in userdata. -/
def carry (s : Nat) (v : Value) : Conversion GuestValue :=
  Conversion.onState s fun g => g.newUserdata (.carrier v)

/-- The guest form of a custom value whose payload is not a built-in one. -/
def encodeCustom (c : Converter) (s : Nat) (custom : Custom) : Conversion GuestValue := do
  let w ← get
  match (c.codec? custom.tag).bind (w.codecs[·]?) with
  | none => carry s (.custom custom)
  | some codec =>
      let (result, g) := codec.encode custom (w.state s)
      set (w.setState s g)
      match result with
      | .ok v => pure v
      | .error e => throw e

/-- The guest form of a custom value. -/
def customFromValue (c : Converter) (s : Nat) (custom : Custom) : Conversion GuestValue :=
  match custom.payload with
  | .bytes data => pure (.string data)
  | .guest owner o => if owner = s then pure (.object o) else c.encodeCustom s custom
  | _ => c.encodeCustom s custom

mutual

/-- Converts a value inside so many tables that `remaining` more may be entered. -/
def fromValueAt (c : Converter) (s : Nat) (remaining : Nat) : Value → Conversion GuestValue
  | .nil => pure .nil
  | .bool b => pure (.boolean b)
  | .number x => pure (.ofNumber x)
  | .string text => pure (.ofString text)
  | .array items => do
      if remaining = 0 then throw (.tooDeep c.maxDepth)
      let values ← c.itemsFromValue s (remaining - 1) items
      Conversion.onState s fun g =>
        let (marker, g) :=
          if items.isEmpty then
            let (id, g) := g.arrayMarkerTable
            (some id, g)
          else (none, g)
        let (id, g) := g.newTable { GuestTable.ofSequence values with metatable := marker }
        (.table id, g)
  | .object fields => do
      if remaining = 0 then throw (.tooDeep c.maxDepth)
      let values ← c.fieldsFromValue s (remaining - 1) fields
      Conversion.onState s fun g =>
        let (id, g) := g.newTable (GuestTable.ofFields values)
        (.table id, g)
  | .function f => c.functionFromValue s f
  | .error e => carry s (.error e)
  | .channel ch => carry s (.channel ch)
  | .custom custom => c.customFromValue s custom

/-- Converts array elements in turn. -/
def itemsFromValue (c : Converter) (s : Nat) (remaining : Nat) :
    List Value → Conversion (List GuestValue)
  | [] => pure []
  | v :: rest => do
      let item ← c.fromValueAt s remaining v
      let items ← c.itemsFromValue s remaining rest
      pure (item :: items)

/-- Converts fields in turn. -/
def fieldsFromValue (c : Converter) (s : Nat) (remaining : Nat) :
    List (String × Value) → Conversion (List (String × GuestValue))
  | [] => pure []
  | (name, v) :: rest => do
      let field ← c.fromValueAt s remaining v
      let fields ← c.fieldsFromValue s remaining rest
      pure ((name, field) :: fields)

end

/-- Converts a value into a guest state. -/
def fromValue (c : Converter) (s : Nat) (v : Value) : Conversion GuestValue :=
  c.fromValueAt s c.maxDepth v

end Converter
end ScriptPool
