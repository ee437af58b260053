import ScriptPool.Config.Basic

/-!
# Execution budgets

A budget bounds one execution by instructions and by time.  The guest charges it once every
`interval` instructions; the first charge that finds it exhausted aborts the execution, and so does
every later one until the budget is armed again.  A budget that is not armed neither counts nor
trips, so whatever ran before an execution is not held against it.
-/

set_option autoImplicit false

namespace ScriptPool

/-- Why an execution was aborted. -/
inductive Exhaustion where
  | instructions (limit : Nat)
  | time (limit : Duration)
  deriving Repr, DecidableEq

/-- The wording of an abort. -/
def Exhaustion.message : Exhaustion → String
  | .instructions limit => "instruction limit of " ++ toString limit ++ " exceeded"
  | .time limit => "execution time limit of " ++ limit.describe ++ " exceeded"

/-- A budget and what has been used of it.  Moments are nanoseconds on the clock of the guest. -/
structure Budget where
  /-- Instructions for one execution; `0` is no limit. -/
  instructionLimit : Nat := 0
  /-- Instructions between two charges. -/
  interval : Nat := 1
  maxDuration : Option Duration := none
  /-- Instructions charged since the budget was armed.  The number has no bound here, where a
  counter would have 64 bits; the two agree up to `2 ^ 64` instructions in one execution. -/
  executed : Nat := 0
  deadline : Option Nat := none
  armed : Bool := false
  /-- Has a charge since the budget was armed found it exhausted? -/
  tripped : Bool := false
  deriving Inhabited

namespace Budget

/-- A fresh budget; an interval of zero counts as one. -/
def new (instructionLimit interval : Nat) (maxDuration : Option Duration) : Budget :=
  { instructionLimit, interval := max interval 1, maxDuration }

/-- The budget that resource limits ask for. -/
def ofLimits (limits : ResourceLimits) : Budget :=
  new limits.instructionLimit limits.hookInterval limits.maxDuration

/-- Is there anything to enforce? -/
def isLimited (b : Budget) : Bool := 0 < b.instructionLimit || b.maxDuration.isSome

/-- Starts the budget afresh for one execution. -/
def arm (b : Budget) (now : Nat) : Budget :=
  { b with
    executed := 0
    deadline := b.maxDuration.map fun d => now + d.nanos
    tripped := false
    armed := true }

/-- Ends the execution. -/
def disarm (b : Budget) : Budget := { b with armed := false }

/-- Is the deadline, if there is one, reached? -/
def isLate (b : Budget) (now : Nat) : Bool :=
  match b.deadline with
  | some deadline => deadline ≤ now
  | none => false

/-- Accounts one interval. -/
def charge (b : Budget) (now : Nat) : Option Exhaustion × Budget :=
  if !b.armed then (none, b)
  else
    let b := { b with executed := b.executed + b.interval }
    if 0 < b.instructionLimit && b.instructionLimit < b.executed then
      (some (.instructions b.instructionLimit), { b with tripped := true })
    else if b.isLate now then
      (some (.time (b.maxDuration.getD .zero)), { b with tripped := true })
    else (none, b)

end Budget
end ScriptPool
