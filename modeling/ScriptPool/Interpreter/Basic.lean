import ScriptPool.Guest.Library
import ScriptPool.Interpreter.Baseline
import ScriptPool.Pool.Error

/-!
# Interpreters

An interpreter is a guest state with what it takes to lend it out again and again: a baseline to go
back to, and a record of how it has been used.

A run that is aborted by a limit leaves the state in the middle of something, so the interpreter is
*tainted* from then on and cannot be reset.  Resetting ends the scope of the state in any case, so
the functions that were handed to the host stop working.
-/

set_option autoImplicit false

namespace ScriptPool

/-- An interpreter. -/
structure Interpreter where
  id : Nat
  /-- Its guest state. -/
  state : Nat
  baseline : Baseline
  /-- How often it has been borrowed. -/
  useCount : Nat := 0
  /-- When it was handed back last, or made, in nanoseconds. -/
  lastUsed : Nat
  /-- Is a chunk running? -/
  executing : Bool := false
  /-- Why it cannot be used any more. -/
  tainted : Option String := none
  /-- Has it been reset since it was made? -/
  wasReset : Bool := false
  deriving Inhabited

/-- Bytes that a new state takes; a lower limit cannot be met. -/
def emptyStateSize : Nat := 36 * 1024

/-- The name of the chunk that a script runs as. -/
def scriptChunk : String := "script"

/-- The name of the chunk that a script for new interpreters runs as. -/
def initChunk : String := "init"

namespace World

/-- A new guest state under limits. -/
def newLimitedState (limits : ResourceLimits) : Transition (Except GuestFault Nat) := do
  if 0 < limits.memoryLimit ∧ limits.memoryLimit < emptyStateSize then return .error .memory
  let g := GuestState.withLibraries limits.security
  let g := { g with memoryLimit := limits.memoryLimit }.install (Budget.ofLimits limits)
  let w ← get
  let (s, w) := w.newState g
  set w
  pure (.ok s)

/-- Does something in a guest state with the budget started for it. -/
def withBudget {α : Type} (s : Nat) (body : Nat → Transition (Except GuestFault α)) :
    Transition (Except GuestFault α) := do
  modify fun w => w.modifyState s GuestState.arm
  let result ← body s
  modify fun w => w.modifyState s GuestState.disarm
  pure result

/-- Runs a script with the budget started for it. -/
def runBudgeted (s : Nat) (chunk : String) (script : Script) :
    Transition (Except GuestFault (List GuestValue)) :=
  withBudget s fun s => runScript s chunk script

/-- Runs the script for new interpreters, if there is one. -/
def prepare (s : Nat) (script : Option String) : Transition (Except GuestFault Unit) := do
  match script with
  | none => pure (.ok ())
  | some text =>
      match ← runBudgeted s initChunk ((← get).language.read text) with
      | .ok _ => pure (.ok ())
      | .error f => pure (.error f)

/-- A new interpreter. -/
def newInterpreter (limits : ResourceLimits) (id now : Nat) :
    Transition (Except InterpreterError Interpreter) := do
  let failed (f : GuestFault) : Except InterpreterError Interpreter :=
    .error (.creation f.message)
  match ← newLimitedState limits with
  | .error f => pure (failed f)
  | .ok state =>
      match ← prepare state limits.initScript with
      | .error f => pure (failed f)
      | .ok () =>
          match ← takeBaseline state with
          | .error f => pure (failed f)
          | .ok baseline => pure (.ok { id, state, baseline, lastUsed := now })

end World

namespace Interpreter

/-- Use after which an interpreter counts as worn. -/
def wearUses : Float := 1000.0

/-- Minutes as a span of time. -/
def minutes (n : Nat) : Duration := .ofSecs (60 * n)

/-- What wear takes off the health of an interpreter. -/
def wearLoss (useCount : Nat) : Float :=
  let wear := Float.ofNat useCount / wearUses
  if 0.5 < wear then 0.3 else if 0.2 < wear then 0.1 else 0.0

/-- What lying idle takes off the health of an interpreter. -/
def idleLoss (idle : Nat) : Float :=
  if (minutes 30).nanos < idle then 0.2 else if (minutes 10).nanos < idle then 0.1 else 0.0

/-- How fit an interpreter is, between `0` and `1`. -/
def health (i : Interpreter) (now : Nat) : Float :=
  let health := 1.0 - wearLoss i.useCount - idleLoss (now - i.lastUsed)
  if health < 0.0 then 0.0 else health

/-- Notes that a loan begins. -/
def lent (i : Interpreter) : Interpreter := { i with useCount := i.useCount + 1 }

/-- Notes that a loan ends. -/
def handedBack (i : Interpreter) (now : Nat) : Interpreter := { i with lastUsed := now }

/-- Does a failed run leave the state unusable?  It does if a limit aborted it. -/
def isAbort (g : GuestState) (f : GuestFault) : Bool := g.budget.tripped || f == .memory

/-- Does something in the guest state under the budget.  A failure is noted if it leaves the state
unusable. -/
def runWith {α : Type} (i : Interpreter) (body : Nat → Transition (Except GuestFault α)) :
    Transition (Except InterpreterError α × Interpreter) := do
  let result ← World.withBudget i.state body
  match result with
  | .ok a => pure (.ok a, i)
  | .error f =>
      let g := (← get).state i.state
      let i := if isAbort g f then { i with tainted := some f.message } else i
      pure (.error (.script f.message), i)

/-- Runs a script and gives its results. -/
def run (i : Interpreter) (script : Script) :
    Transition (Except InterpreterError (List GuestValue) × Interpreter) :=
  i.runWith fun s => World.runScript s scriptChunk script

/-- Assigns a global; metamethods of the globals apply. -/
def setGlobal (i : Interpreter) (name : String) (v : GuestValue) :
    Transition (Except InterpreterError Unit) := do
  return (← World.assignGlobal i.state name v).mapError fun f => .script f.message

/-- Reads a global; metamethods of the globals apply. -/
def getGlobal (i : Interpreter) (name : String) :
    Transition (Except InterpreterError GuestValue) := do
  return (← World.readGlobal i.state name).mapError fun f => .script f.message

/-- Ends the present loan's scope and restores the baseline, unless the interpreter is tainted.  The
collection comes last, so finalizers find the baseline restored, and what they do to it stays. -/
def reset (i : Interpreter) : Transition (Except InterpreterError Unit × Interpreter) := do
  modify fun w => w.endScope i.state
  match i.tainted with
  | some reason =>
      pure (.error (.reset
        ("interpreter " ++ toString i.id ++ " aborted by resource limit: " ++ reason)), i)
  | none =>
      modify fun w => w.modifyState i.state i.baseline.restore
      match ← World.collect i.state with
      | .error f => pure (.error (.reset f.message), i)
      | .ok () => pure (.ok (), { i with wasReset := true })

/-- Lets go of an interpreter: nothing that it handed out works any more. -/
def discard (i : Interpreter) : Transition Unit := modify fun w => w.endScope i.state

end Interpreter
end ScriptPool
