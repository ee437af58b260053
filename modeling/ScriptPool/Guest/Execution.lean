import ScriptPool.Convert.Basic

/-!
# Executions

An execution runs in a world, may change it, and may stop with a thrown guest value; what it changed
before stays changed.  Instructions are paid for as they are executed: every `interval` of them the
budget of the state is charged, and a charge that finds it exhausted throws.  The charge is a hook
of the one thread that scripts are run on.  What coroutines execute on threads of their own is not
counted; what finalizers execute is, but when an interval is over in a finalizer, nothing is charged
for it.  It all takes its time nevertheless.

Time on the clock of a guest passes only by executing instructions, `instructionNanos` for each.
-/

set_option autoImplicit false

namespace ScriptPool

/-- An execution: a transition of the world that gives a result or throws a guest value. -/
abbrev Execution (α : Type) := ExceptT GuestValue (StateM World) α

/-- Nanoseconds that an instruction takes. -/
def instructionNanos : Nat := 5

namespace GuestState

/-- Charges executions to a budget, if that has anything to enforce. -/
def install (g : GuestState) (b : Budget) : GuestState :=
  { g with budget := b, hook := if b.isLimited then .charging else .absent }

/-- Changes how executions are charged. -/
def setHook (g : GuestState) (hook : Hook) : GuestState := { g with hook }

/-- Begins something on the side. -/
def stepAside (g : GuestState) (kind : Aside) : GuestState := g.setHook (g.hook.aside kind)

/-- Starts the budget afresh for one execution. -/
def arm (g : GuestState) : GuestState := { g with budget := g.budget.arm g.clock }

/-- Ends the execution that the budget was started for. -/
def disarm (g : GuestState) : GuestState := { g with budget := g.budget.disarm }

/-- Charges the budget `times` times, or until it is exhausted. -/
def chargeTimes : Nat → GuestState → Option Exhaustion × GuestState
  | 0, g => (none, g)
  | times + 1, g =>
      let clock := g.clock + g.budget.interval * instructionNanos
      match g.budget.charge clock with
      | (some cause, budget) => (some cause, { g with clock, budget, pending := 0 })
      | (none, budget) => chargeTimes times { g with clock, budget }

/-- Executes `n` instructions, or as many as the budget has. -/
def advance (g : GuestState) (n : Nat) : Option Exhaustion × GuestState :=
  let total := g.pending + n
  match g.hook with
  | .absent =>
      (none, { g with clock := g.clock + n * instructionNanos, uncharged := g.uncharged + n })
  | .muted =>
      let passed := total / g.budget.interval * g.budget.interval
      (none, { g with
        clock := g.clock + passed * instructionNanos
        uncharged := g.uncharged + passed
        pending := total % g.budget.interval })
  | .charging =>
      match g.chargeTimes (total / g.budget.interval) with
      | (none, g) => (none, { g with pending := total % g.budget.interval })
      | (some cause, g) => (some cause, g)

/-- How many charges an endless execution survives before the budget is exhausted, if it ever is. -/
def chargesToExhaustion? (g : GuestState) : Option Nat :=
  let b := g.budget
  if g.hook != .charging || !b.armed then none
  else
    let byCount :=
      if b.instructionLimit = 0 then none
      else some ((b.instructionLimit - b.executed) / b.interval + 1)
    let byTime := b.deadline.map fun deadline =>
      max 1 ((deadline - g.clock + b.interval * instructionNanos - 1) / (b.interval * instructionNanos))
    match byCount, byTime with
    | none, time => time
    | some count, none => some count
    | some count, some time => some (min count time)

end GuestState

namespace Execution

variable {α : Type}

/-- Reads or changes one guest state. -/
def onState (s : Nat) (f : GuestState → α × GuestState) : Execution α := do
  let w ← get
  let (a, g) := f (w.state s)
  set (w.setState s g)
  pure a

/-- The present form of a guest state. -/
def stateOf (s : Nat) : Execution GuestState := do
  pure ((← get).state s)

/-- Throws an error of the guest. -/
def raise (f : GuestFault) : Execution α := throw (.fault f)

/-- Throws a text, with the place in front of it where there is one. -/
def fail (chunk : Option String) (message : String) : Execution α :=
  let position := match chunk with
    | some name => name ++ ":1: "
    | none => ""
  throw (.ofString (position ++ message))

/-- Executes `n` instructions. -/
def pay (s : Nat) (n : Nat) : Execution Unit := do
  match ← onState s fun g => g.advance n with
  | none => pure ()
  | some cause => raise (.runtime cause.message)

/-- Executes instructions without end. -/
def payForever (s : Nat) : Execution Unit := do
  match (← stateOf s).chargesToExhaustion? with
  | none => raise .endless
  | some times =>
      match ← onState s fun g => g.chargeTimes times with
      | none => raise .endless
      | some cause => raise (.runtime cause.message)

/-- Runs an execution and catches what it throws.  That it never ends cannot be caught. -/
def guarded (run : Execution α) : Execution (Except GuestValue α) :=
  tryCatch (return .ok (← run)) fun
    | .fault .endless => throw (.fault .endless)
    | thrown => pure (.error thrown)

/-- Runs an execution on the side. -/
def aside (s : Nat) (kind : Aside) (run : Execution α) : Execution α := do
  let hook ← onState s fun g => (g.hook, g.stepAside kind)
  let outcome ← ExceptT.lift run.run
  onState s fun g => ((), g.setHook hook)
  match outcome with
  | .ok a => pure a
  | .error thrown => throw thrown

/-- A conversion as part of an execution; its failure is a result. -/
def convert (c : Conversion α) : Execution (Except ConvertError α) := do
  let w ← get
  let (r, w) := c.run.run w
  set w
  pure r

end Execution
end ScriptPool
