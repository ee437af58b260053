import ScriptPool.Guest.Execution
import ScriptPool.Guest.Numeral
import ScriptPool.Value.Text

/-!
# Access with metamethods

Reading and assigning a key, calling a value, and turning a value into text all consult the
metatable of the value where the raw operation has no answer.  A metamethod may be a function, so
these operations are given the means to call one.

Messages say how the offending value was reached, which is what `Origin` records.
-/

set_option autoImplicit false

namespace ScriptPool

/-- How a value was reached, for messages. -/
inductive Origin where
  | unknown
  | global (name : String)
  | field (name : String)
  | method (name : String)
  | parameter (name : String)

/-- The end of a message that blames a value. -/
def Origin.suffix : Origin → String
  | .unknown => ""
  | .global name => " (global '" ++ name ++ "')"
  | .field name => " (field '" ++ name ++ "')"
  | .method name => " (method '" ++ name ++ "')"
  | .parameter name => " (local '" ++ name ++ "')"

/-- The means to call functions, of the guest and of the host.  `chunk` is where the call is
written, if it is written in a script. -/
structure Calls where
  guest (chunk : Option String) (s : Nat) (function : Nat) (args : List GuestValue) :
    Execution (List GuestValue)
  value (f : FunctionValue) (args : List Value) : Execution HostOutcome

/-- Chains of metatables are followed so far. -/
def metatableChain : Nat := 2000

namespace GuestState

/-- A field of the metatable of a value. -/
def metafield (g : GuestState) (v : GuestValue) (name : String) : GuestValue :=
  match g.metatable? v with
  | some m => (g.table m).field name
  | none => .nil

/-- The readable properties of a carried value. -/
def property (held : Value) (key : GuestValue) : Option GuestValue :=
  let text (s : Option String) : GuestValue := (s.map GuestValue.ofString).getD .nil
  if key.rawEqual (.ofString "kind") then some (.ofString held.kind.name)
  else if key.rawEqual (.ofString "message") then
    some (text (match held with
      | .error e => some e.message
      | _ => none))
  else if key.rawEqual (.ofString "tag") then
    some (text (match held with
      | .channel c => some c.id
      | .custom c => some c.tag
      | _ => none))
  else none

end GuestState

namespace Execution

/-- The first of several results. -/
def first (results : List GuestValue) : GuestValue := results.headD .nil

/-- A number in hexadecimal, as the address of an object. -/
def address (n : Nat) : String :=
  let digits := String.ofList (Nat.toDigits 16 (0x10000 + 16 * n))
  "0x" ++ Decimal.zeros (14 - digits.length) ++ digits

/-- Fails because an operation is not possible on a value. -/
def blame {α : Type} (chunk : Option String) (verb : String) (v : GuestValue) (origin : Origin) :
    Execution α :=
  fail chunk ("attempt to " ++ verb ++ " a " ++ v.scriptType ++ " value" ++ origin.suffix)

variable (calls : Calls)

/-- Calls a value. -/
def callValue (chunk : Option String) (s : Nat) (origin : Origin) (callee : GuestValue)
    (args : List GuestValue) : Execution (List GuestValue) := do
  match callee with
  | .function id => calls.guest chunk s id args
  | _ =>
      match (← stateOf s).metafield callee "__call" with
      | .function id => calls.guest chunk s id (callee :: args)
      | _ => blame chunk "call" callee origin

/-- Reads a key of a value. -/
def index (chunk : Option String) (s : Nat) (origin : Origin) (v key : GuestValue) :
    Execution GuestValue :=
  follow metatableChain v
where
  /-- Follows the chain of metatables. -/
  follow : Nat → GuestValue → Execution GuestValue
    | 0, _ => fail chunk "'__index' chain too long; possibly a loop"
    | left + 1, v => do
        let g ← stateOf s
        let own : Option GuestValue := match v with
          | .table id =>
              let found := g.rawGet id key
              if found.isNil && !(g.metafield v "__index").isNil then none else some found
          | .object o =>
              (g.carried? o).map fun held => (GuestState.property held key).getD .nil
          | _ => none
        match own with
        | some found => pure found
        | none =>
            match g.metafield v "__index" with
            | .nil => blame chunk "index" v origin
            | .function id => return first (← calls.guest none s id [v, key])
            | next => follow left next

/-- Assigns to a key of a value. -/
def assign (chunk : Option String) (s : Nat) (origin : Origin) (v key value : GuestValue) :
    Execution Unit :=
  follow metatableChain v
where
  /-- Follows the chain of metatables. -/
  follow : Nat → GuestValue → Execution Unit
    | 0, _ => fail chunk "'__newindex' chain too long; possibly a loop"
    | left + 1, v => do
        let g ← stateOf s
        let handler := g.metafield v "__newindex"
        let raw : Option Nat := match v with
          | .table id => if handler.isNil || !(g.rawGet id key).isNil then some id else none
          | _ => none
        match raw with
        | some id =>
            match key.toKey? with
            | some _ => onState s fun g => ((), g.rawSet id key value)
            | none =>
                fail chunk (if key.isNil then "table index is nil" else "table index is NaN")
        | none =>
            match handler with
            | .nil => blame chunk "index" v origin
            | .function id => do
                let _ ← calls.guest none s id [v, key, value]
                pure ()
            | next => follow left next

/-- The text of a value. -/
def textOf (s : Nat) (v : GuestValue) : Execution ByteArray := do
  let g ← stateOf s
  match g.metafield v "__tostring" with
  | .nil =>
      let text := match v with
        | .nil => "nil"
        | .boolean b => if b then "true" else "false"
        | .table id => "table: " ++ address id
        | .function id => "function: " ++ address id
        | .object (.thread id) => "thread: " ++ address id
        | .object (.lightUserdata a) => "userdata: " ++ address a
        | .object (.userdata id) =>
            match g.carried? (.userdata id) with
            | some held => held.text
            | none => "userdata: " ++ address id
        | .fault f => f.message
        | _ => ""
      pure (v.scalarText?.getD text.toUTF8)
  | handler => do
      match ← callValue calls none s .unknown handler [v] with
      | .string bytes :: _ => pure bytes
      | .integer n :: _ => pure ((GuestValue.integer n).scalarText?.getD ByteArray.empty)
      | .float x :: _ => pure ((GuestValue.float x).scalarText?.getD ByteArray.empty)
      | _ => fail none "'__tostring' must return a string"

/-- The error that a thrown value amounts to when nothing catches it: an error as it is, and the
text of any other value. -/
def faultOf (s : Nat) (thrown : GuestValue) : Execution GuestFault := do
  match thrown with
  | .fault f => pure f
  | v => do
      let text ← tryCatch (textOf calls s v) fun _ => pure "<error object>".toUTF8
      pure (.runtime (Text.decodeLossy text))

end Execution
end ScriptPool
