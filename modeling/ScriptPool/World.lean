import ScriptPool.Error
import ScriptPool.Guest.Language

/-!
# The world that handles refer to

A `Value` carries handles; a `World` says what they stand for.  It holds the guest states, the
functions that have been given a handle, and the codecs that converters refer to, and it knows the
language of the guests, which nothing changes.

A function on the host side is arbitrary: `HostFunction.respond` maps the arguments of all earlier
calls and of the present one to what the function does.  Since a host function may call other
functions on the way, what it does is a tree, `HostAction`: it either ends or asks for a call and
goes on with the result.  The tree has no access to the world, so everything a host function can
bring about is visible in it.
-/

set_option autoImplicit false

namespace ScriptPool

/-- How a call of a host function ends. -/
inductive HostOutcome where
  | returned (result : Except CallError Value)
  /-- The function broke down, with a text or with something that is none. -/
  | panicked (message : Option String)

/-- What a host function does in one call. -/
inductive HostAction where
  | finish (outcome : HostOutcome)
  /-- Calls a function and goes on with the result. -/
  | invoke (f : FunctionValue) (args : List Value) (resume : Except CallError Value → HostAction)

namespace HostAction

/-- Ends with a value. -/
def ok (v : Value) : HostAction := .finish (.returned (.ok v))

/-- Ends with a failure. -/
def fail (e : CallError) : HostAction := .finish (.returned (.error e))

end HostAction

/-- A function of the host side and the calls it has received, earliest first. -/
structure HostFunction where
  respond : List (List Value) → List Value → HostAction
  calls : List (List Value) := []

/-- A function of a guest state, as handed to the host. -/
structure GuestFunction where
  state : Nat
  function : Nat
  converter : Converter
  /-- The epoch of the state when the function was handed out. -/
  issued : Nat

/-- What a function handle stands for. -/
inductive Callable where
  | host (f : HostFunction)
  | guest (f : GuestFunction)

/-- How the custom values of one tag cross. -/
structure Codec where
  /-- The guest form of a custom value. -/
  encode : Custom → GuestState → Except ConvertError GuestValue × GuestState
  /-- A codec works on the guest from outside, so nothing goes away by it. -/
  leadsTo : ∀ custom (g : GuestState), g.LeadsTo (encode custom g).2
  /-- Claims a table or foreign userdata and gives the payload, or leaves it alone. -/
  decode : GuestState → GuestValue → Except ConvertError (Option Payload)

/-- What handles refer to. -/
structure World where
  states : Array GuestState := #[]
  functions : Array Callable := #[]
  codecs : Array Codec := #[]
  /-- Handles of payloads and channels given out so far. -/
  handles : Nat := 0
  /-- The language of the guests. -/
  language : Language := {}
  deriving Inhabited

namespace World

/-- A guest state. -/
def state (w : World) (s : Nat) : GuestState := w.states.getD s {}

/-- Changes one guest state. -/
def modifyState (w : World) (s : Nat) (f : GuestState → GuestState) : World :=
  { w with states := w.states.modify s f }

/-- Replaces one guest state. -/
def setState (w : World) (s : Nat) (g : GuestState) : World :=
  { w with states := w.states.setIfInBounds s g }

/-- Adds a guest state. -/
def newState (w : World) (g : GuestState) : Nat × World :=
  (w.states.size, { w with states := w.states.push g })

/-- Gives out a handle for a function. -/
def newFunction (w : World) (f : Callable) : Handle × World :=
  (w.functions.size, { w with functions := w.functions.push f })

/-- Gives out a handle for a payload or a channel. -/
def newHandle (w : World) : Handle × World := (w.handles, { w with handles := w.handles + 1 })

/-- Adds a codec. -/
def newCodec (w : World) (c : Codec) : Nat × World :=
  (w.codecs.size, { w with codecs := w.codecs.push c })

/-- Is a function of a guest state still good?  It is until the state changes hands. -/
def isLive (w : World) (f : GuestFunction) : Bool := (w.state f.state).epoch == f.issued

/-- The guest function behind a function value, if it is one. -/
def guestFunction? (w : World) (f : FunctionValue) : Option GuestFunction :=
  match w.functions[f.handle]? with
  | some (.guest g) => some g
  | _ => none

/-- Ends the scope of a guest state. -/
def endScope (w : World) (s : Nat) : World := w.modifyState s GuestState.endScope

end World
end ScriptPool
