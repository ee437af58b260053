import ScriptPool.World

/-!
# Converters

A conversion reads or extends the heap of one guest state and may give out handles, so it is a state
transition of the world; when it fails, what it allocated before stays behind unreachable.

A `Converter` is a depth limit and a list of codecs in the order of their tags.  A tag can be
registered once.
-/

set_option autoImplicit false

namespace ScriptPool

/-- A conversion. -/
abbrev Conversion (α : Type) := ExceptT ConvertError (StateM World) α

namespace Conversion

variable {α : Type}

/-- Reads or changes one guest state. -/
def onState (s : Nat) (f : GuestState → α × GuestState) : Conversion α := do
  let w ← get
  let (a, g) := f (w.state s)
  set (w.setState s g)
  pure a

/-- Gives out a handle for a payload. -/
def newHandle : Conversion Handle := do
  let w ← get
  let (h, w) := w.newHandle
  set w
  pure h

/-- Wraps a failure of the guest. -/
def ofGuest (r : Except GuestFault α) : Conversion α :=
  match r with
  | .ok a => pure a
  | .error f => throw (.guest f.message)

end Conversion

namespace Converter

/-- The codec registered for a tag. -/
def codec? (c : Converter) (tag : String) : Option Nat :=
  (c.codecs.find? fun entry => entry.1 == tag).map (·.2)

/-- The registered tags, in the order in which codecs are consulted. -/
def tags (c : Converter) : List String := c.codecs.map (·.1)

/-- The registered tags, for diagnostics. -/
def describeTags (c : Converter) : String :=
  "\x7b" ++ ", ".intercalate (c.tags.map Text.quote) ++ "\x7d"

/-- Puts a codec at the place of its tag. -/
def insertCodec (tag : String) (codec : Nat) : List (String × Nat) → List (String × Nat)
  | [] => [(tag, codec)]
  | (other, k) :: rest =>
      if tag < other then (tag, codec) :: (other, k) :: rest
      else (other, k) :: insertCodec tag codec rest

/-- Registers a codec for a tag that has none. -/
def register (c : Converter) (tag : String) (codec : Nat) : Except ConvertError Converter :=
  match c.codec? tag with
  | some _ => .error (.duplicateTag tag)
  | none => .ok { c with codecs := insertCodec tag codec c.codecs }

/-- Offers a table or foreign userdata to the codecs in turn.  The payload that the first one claims
is given back with that codec's tag. -/
def offer (s : Nat) (v : GuestValue) : List (String × Nat) → Conversion (Option (String × Payload))
  | [] => pure none
  | (tag, codec) :: rest => do
      let w ← get
      match w.codecs[codec]? with
      | none => offer s v rest
      | some codec =>
          match codec.decode (w.state s) v with
          | .error e => throw e
          | .ok (some payload) => pure (some (tag, payload))
          | .ok none => offer s v rest

end Converter
end ScriptPool
