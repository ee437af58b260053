import ScriptPool.Pool.Basic

/-!
# Handing an interpreter back

An interpreter that comes back is reset and goes to the end of the queue.  One that is worn or
cannot be reset is discarded and replaced, and one that comes back to a closed pool is discarded.
-/

set_option autoImplicit false

namespace ScriptPool
namespace Pool

/-- Has an interpreter been on loan as often as the configuration allows? -/
def isWorn (p : Pool) (i : Interpreter) : Bool :=
  match p.config.maxUses with
  | some uses => uses ≤ i.useCount
  | none => false

/-- Plans a replacement, if that is possible. -/
def replace (p : Pool) : Pool := (p.plan? .replacement).getD p

/-- Discards an interpreter on its return, and has it replaced. -/
def recycle (p : Pool) (i : Interpreter) : Transition Pool := do
  let p := { p with counters := { p.counters with recycled := p.counters.recycled + 1 } }
  return (← p.discard i).replace

/-- Takes an interpreter back. -/
def takeBack (p : Pool) (i : Interpreter) (now : Nat) : Transition Pool := do
  let p := p.endLoan i.id now
  if p.closed then p.discard i
  else if p.isWorn i then p.recycle i
  else
    match ← i.reset with
    | (.error _, i) => p.recycle i
    | (.ok (), i) => p.addIdle (i.handedBack now)

/-- Hands back the interpreter on loan with a number. -/
def giveBack (p : Pool) (id now : Nat) : Transition Pool :=
  match p.loan? id with
  | none => pure p
  | some i => p.takeBack i now

end Pool
end ScriptPool
