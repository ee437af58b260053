import ScriptPool.Convert.FromValue
import ScriptPool.Convert.ToValue
import ScriptPool.Guest.Routine

/-!
# Running scripts and calling functions

Scripts are evaluated by recursion on their trees.  Calls do not go down in a tree: a function may
call itself, and a call may go back and forth between guest states and the host.  So evaluation is
given the means to call functions, as `Calls`, and the knot is tied by `callsWithin`, by recursion
on how many calls may still be nested.

A function of the host that is called from the guest answers a failure with the two results `nil`
and a message, so nothing that goes wrong in it, down to a breakdown, is thrown into the guest.
-/

set_option autoImplicit false

namespace ScriptPool

/-- The value of a constant. -/
def Literal.value : Literal → GuestValue
  | .nil => .nil
  | .boolean b => .boolean b
  | .integer n => .integer n
  | .float x => .float x
  | .string bytes => .string bytes

/-- How the value under a constant key was reached. -/
def Literal.origin (isGlobal : Bool) : Literal → Origin
  | .string bytes =>
      let name := Text.decodeLossy bytes
      if isGlobal then .global name else .field name
  | .integer n => .field (if 0 ≤ n.toInt ∧ n.toInt ≤ 255 then "integer index" else "?")
  | _ => .field "?"

/-- How the value of an expression was reached. -/
def Expr.origin : Expr → Origin
  | .get path =>
      match path.getLast? with
      | some key => key.origin (path.length == 1)
      | none => .unknown
  | .index _ (.literal key) => key.origin false
  | .index _ _ => .field "?"
  | _ => .unknown

namespace Execution

/-! ## Expressions and statements -/

section Evaluation

variable (calls : Calls) (chunk : String) (s : Nat)

/-- Follows a path of keys. -/
def followPath : List Literal → Bool → Origin → GuestValue → Execution (GuestValue × Origin)
  | [], _, origin, v => pure (v, origin)
  | key :: rest, isGlobal, origin, v => do
      let next ← index calls (some chunk) s origin v key.value
      followPath rest false (key.origin isGlobal) next

/-- Reads along a path from the globals. -/
def readPath (path : List Literal) : Execution (GuestValue × Origin) := do
  pay s (path.length + 1)
  followPath calls chunk s path true .unknown (.table (← stateOf s).globals)

/-- Calls a global function. -/
def callGlobal (name : String) (args : Execution (List GuestValue)) :
    Execution (List GuestValue) := do
  let (f, origin) ← readPath calls chunk s [.string name.toUTF8]
  let args ← args
  pay s 1
  callValue calls (some chunk) s origin f args

/-- Puts an entry into a table under construction. -/
def addEntry (id : Nat) (key value : GuestValue) : Execution Unit := do
  if key.toKey?.isNone then
    fail (some chunk) (if key.isNil then "table index is nil" else "table index is NaN")
  onState s fun g => ((), g.rawSet id key value)

/-- Makes a function of a chunk. -/
def newFunction (body : Script) : Execution GuestValue := do
  pay s 1
  onState s fun g =>
    let (id, g) := g.newFunction (.script chunk body)
    (.function id, g)

/-- Takes up a gigabyte of memory, if there is that much. -/
def takeMemory : Execution Unit := do
  pay s 5
  let limit := (← stateOf s).memoryLimit
  if 0 < limit ∧ limit < 2 ^ 30 then raise .memory

mutual

/-- The value of an expression. -/
def eval : Expr → Execution GuestValue
  | .literal l => do
      pay s 1
      pure l.value
  | .get path => return (← readPath calls chunk s path).1
  | .table entries => do
      pay s 1
      let id ← onState s fun g => g.newTable
      evalEntries id entries
      pure (.table id)
  | .call f args => do
      let callee ← eval f
      let values ← evalAll args
      pay s 1
      return first (← callValue calls (some chunk) s f.origin callee values)
  | .results f args => do
      let callee ← eval f
      let values ← evalAll args
      pay s 1
      return first (← routine calls s .results (callee :: values))
  | .method receiver name args => do
      let object ← eval receiver
      pay s 1
      let callee ← index calls (some chunk) s receiver.origin object (.ofString name)
      let values ← evalAll args
      pay s 1
      return first (← callValue calls (some chunk) s (.method name) callee (object :: values))
  | .index e key => do
      let v ← eval e
      let k ← eval key
      pay s 1
      index calls (some chunk) s e.origin v k
  | .typeOf e => return first (← callGlobal calls chunk s "type" (return [← eval e]))
  | .textOf e => return first (← callGlobal calls chunk s "tostring" (return [← eval e]))
  | .metatableOf e =>
      return first (← callGlobal calls chunk s "getmetatable" (return [← eval e]))
  | .routine r => do
      pay s 1
      onState s fun g =>
        let (id, g) := g.newFunction (.routine r)
        (.function id, g)
  | .constant e => newFunction chunk s [.return [e]]
  | .guarded body =>
      return first (← callGlobal calls chunk s "pcall" (return [← newFunction chunk s body]))

/-- The values of expressions in turn. -/
def evalAll : List Expr → Execution (List GuestValue)
  | [] => pure []
  | e :: rest => do
      let v ← eval e
      let values ← evalAll rest
      pure (v :: values)

/-- Fills a table under construction. -/
def evalEntries (id : Nat) : List (Expr × Expr) → Execution Unit
  | [] => pure ()
  | (key, value) :: rest => do
      let k ← eval key
      let v ← eval value
      pay s 1
      addEntry chunk s id k v
      evalEntries id rest

end

/-- Executes a statement.  One that returns gives its results. -/
def exec : Stmt → Execution (Option (List GuestValue))
  | .set path e => do
      let (object, origin) ← readPath calls chunk s path.dropLast
      let v ← eval calls chunk s e
      pay s 1
      match path.getLast? with
      | some key => assign calls (some chunk) s origin object key.value v
      | none => pure ()
      pure none
  | .setField e key value => do
      let object ← eval calls chunk s e
      let k ← eval calls chunk s key
      let v ← eval calls chunk s value
      pay s 1
      assign calls (some chunk) s e.origin object k v
      pure none
  | .setMetatable e metatable => do
      let _ ← callGlobal calls chunk s "setmetatable"
        (return [← eval calls chunk s e, ← eval calls chunk s metatable])
      pure none
  | .eval e => do
      let _ ← eval calls chunk s e
      pure none
  | .return es => return some (← evalAll calls chunk s es)
  | .fail e => do
      let _ ← callGlobal calls chunk s "error" (return [← eval calls chunk s e])
      pure none
  | .failPlain e => do
      let _ ← callGlobal calls chunk s "error" (return [← eval calls chunk s e, .ofInt 0])
      pure none
  | .loop => do
      payForever s
      pure none
  | .count n => do
      pay s (n + 4)
      pure none
  | .hog => do
      takeMemory s
      pure none
  | .malformed => pure none

/-- Executes a chunk and gives its results. -/
def execAll : Script → Execution (List GuestValue)
  | [] => do
      pay s 1
      pure []
  | statement :: rest => do
      match ← exec calls chunk s statement with
      | some results =>
          pay s 1
          pure results
      | none => execAll rest

end Evaluation

end Execution

/-! ## Calls -/

/-- Does what a host function asks for. -/
def HostAction.run (call : FunctionValue → List Value → Execution HostOutcome) :
    HostAction → Execution HostOutcome
  | .finish outcome => pure outcome
  | .invoke f args resume => do
      match ← call f args with
      | .returned result => (resume result).run call
      | .panicked message => pure (.panicked message)

/-- The message of a host function that broke down. -/
def panicText : Option String → String
  | some message => "host function panicked: " ++ message
  | none => "host function panicked"

/-- What the caller in the guest gets to see: a value, or a message in place of one. -/
def HostOutcome.reply : HostOutcome → Except String Value
  | .returned (.ok (.error e)) => .error e.message
  | .returned (.ok v) => .ok v
  | .returned (.error e) => .error e.message
  | .panicked message => .error (panicText message)

/-- Why the host cannot call a function of an interpreter that has changed hands. -/
def staleFunction : CallError := .failed "interpreter returned to pool"

namespace Converter

/-- Converts values in turn. -/
def allToValue (c : Converter) (s : Nat) : List GuestValue → Conversion (List Value)
  | [] => pure []
  | v :: rest => do
      let value ← c.toValue s v
      let values ← c.allToValue s rest
      pure (value :: values)

/-- Converts values in turn. -/
def allFromValue (c : Converter) (s : Nat) : List Value → Conversion (List GuestValue)
  | [] => pure []
  | v :: rest => do
      let value ← c.fromValue s v
      let values ← c.allFromValue s rest
      pure (value :: values)

end Converter

namespace Execution

variable (calls : Calls)

/-- What a function of the guest gets back for a value of the host. -/
def answer (c : Converter) (s : Nat) (v : Value) : Execution (List GuestValue) := do
  match ← convert (c.fromValue s v) with
  | .ok result => pure [result]
  | .error e => pure [.nil, .ofString e.message]

/-- Calls a function of the host from the guest. -/
def trampoline (s : Nat) (target : FunctionValue) (c : Converter) (args : List GuestValue) :
    Execution (List GuestValue) := do
  match ← convert (c.allToValue s args) with
  | .error e => pure [.nil, .ofString (CallError.conversion e).message]
  | .ok values =>
      match (← calls.value target values).reply with
      | .error message => pure [.nil, .ofString message]
      | .ok v => answer c s v

/-- Calls a function of the guest. -/
def applyFunction (chunk : Option String) (s function : Nat) (args : List GuestValue) :
    Execution (List GuestValue) := do
  match (← stateOf s).functions[function]? with
  | none => pure []
  | some (.library name) => builtin calls chunk s name args
  | some (.routine r) => routine calls s r args
  | some (.script place body) => execAll calls place s body
  | some (.trampoline target c) => trampoline calls s target c args
  | some (.resumption thread) => callResumption calls chunk s thread args

/-- Calls a function of the guest from the host.  Arguments and the first result are converted; an
error of the guest is a result. -/
def applyGuest (f : GuestFunction) (args : List Value) :
    Execution (Except CallError Value) := do
  if !(← get).isLive f then return .error staleFunction
  match ← convert (f.converter.allFromValue f.state args) with
  | .error e => pure (.error (.conversion e))
  | .ok values =>
      match ← guarded (calls.guest none f.state f.function values) with
      | .error thrown =>
          let fault ← faultOf calls f.state thrown
          pure (.ok (.ofMessage fault.message))
      | .ok results =>
          match ← convert (f.converter.toValue f.state (first results)) with
          | .ok v => pure (.ok v)
          | .error e => pure (.error (.conversion e))

/-- Finalizes a table: what its metatable has for that is called, and nothing is charged.  What it
throws is of no consequence. -/
def finalize (s table : Nat) : Execution Unit := do
  match (← stateOf s).metafield (.table table) "__gc" with
  | .nil => pure ()
  | finalizer => do
      let _ ← guarded
        (aside s .finalizer (callValue calls none s .unknown finalizer [.table table]))
      pure ()

/-- Finalizes tables in turn. -/
def finalizeAll (s : Nat) : List Nat → Execution Unit
  | [] => pure ()
  | table :: rest => do
      finalize calls s table
      finalizeAll s rest

/-- Calls a canonical function. -/
def applyValue (f : FunctionValue) (args : List Value) : Execution HostOutcome := do
  let w ← get
  match w.functions[f.handle]? with
  | none => pure (.returned (.ok .nil))
  | some (.host h) =>
      let called := Callable.host { h with calls := h.calls ++ [args] }
      set { w with functions := w.functions.setIfInBounds f.handle called }
      (h.respond h.calls args).run calls.value
  | some (.guest g) => return .returned (← applyGuest calls g args)

end Execution

/-- How deeply calls can be nested. -/
def callDepth : Nat := 200

/-- Calls of functions, nested at most so deeply. -/
def callsWithin : Nat → Calls
  | 0 =>
      { guest := fun chunk _ _ _ => Execution.fail chunk "stack overflow"
        value := fun _ _ => pure (.returned (.error (.failed "stack overflow"))) }
  | depth + 1 =>
      { guest := Execution.applyFunction (callsWithin depth)
        value := Execution.applyValue (callsWithin depth) }

/-! ## From outside -/

/-- A transition of the world that cannot fail as a whole. -/
abbrev Transition (α : Type) := StateM World α

namespace World

/-- Runs an execution of a guest state; what is thrown and not caught is an error. -/
def finish {α : Type} (s : Nat) (run : Execution α) : Transition (Except GuestFault α) := do
  match ← run.run with
  | .ok a => pure (.ok a)
  | .error thrown =>
      match ← (Execution.faultOf (callsWithin callDepth) s thrown).run with
      | .ok fault => pure (.error fault)
      | .error _ => pure (.error .endless)

/-- Runs a script as one chunk. -/
def runScript (s : Nat) (chunk : String) (script : Script) :
    Transition (Except GuestFault (List GuestValue)) :=
  if bodyMalformed script then
    pure (.error (.malformed (chunk ++ ":1: syntax error near 'is'")))
  else finish s (Execution.execAll (callsWithin callDepth) chunk s script)

/-- Calls a function of the guest. -/
def callGuest (s : Nat) (f : GuestValue) (args : List GuestValue) :
    Transition (Except GuestFault (List GuestValue)) :=
  finish s (Execution.callValue (callsWithin callDepth) none s .unknown f args)

/-- Reads a global, with metamethods. -/
def readGlobal (s : Nat) (name : String) : Transition (Except GuestFault GuestValue) := do
  let globals := ((← get).state s).globals
  finish s (Execution.index (callsWithin callDepth) none s .unknown (.table globals)
    (.ofString name))

/-- Assigns a global, with metamethods. -/
def assignGlobal (s : Nat) (name : String) (v : GuestValue) :
    Transition (Except GuestFault Unit) := do
  let globals := ((← get).state s).globals
  finish s (Execution.assign (callsWithin callDepth) none s .unknown (.table globals)
    (.ofString name) v)

/-- Runs a full collection.  Nothing is ever taken out of the heap, so there is no more to it than
finalizing what is found to be out of use. -/
def collect (s : Nat) : Transition (Except GuestFault Unit) := do
  let w ← get
  finish s (Execution.finalizeAll (callsWithin callDepth) s (w.language.finalized s (w.state s)))

/-- The text of a value. -/
def textOf (s : Nat) (v : GuestValue) : Transition (Except GuestFault ByteArray) :=
  finish s (Execution.textOf (callsWithin callDepth) s v)

/-- Calls a canonical function. -/
def call (f : FunctionValue) (args : List Value) : Transition HostOutcome := do
  match ← ((callsWithin callDepth).value f args).run with
  | .ok outcome => pure outcome
  | .error _ => pure (.returned (.error (.failed GuestFault.endless.message)))

/-- Converts a value of a guest state. -/
def toValue (c : Converter) (s : Nat) (v : GuestValue) : Transition (Except ConvertError Value) :=
  (c.toValue s v).run

/-- Converts a value into a guest state. -/
def fromValue (c : Converter) (s : Nat) (v : Value) :
    Transition (Except ConvertError GuestValue) :=
  (c.fromValue s v).run

end World
end ScriptPool
