import ScriptPool.Config.Normal
import ScriptPool.Interpreter.Basic
import ScriptPool.Pool.Load
import ScriptPool.Pool.Memory
import ScriptPool.Pool.Requests

/-!
# Pools

A pool keeps idle interpreters and lends them out, one borrower each, and makes new ones up to a
limit.

What goes on in a pool is a sequence of *moves*, each of which runs to its end: a request begins or
goes on, an interpreter is handed back, a creation starts or ends, the idle interpreters are swept,
and so on.  Between moves the pool is at rest, and this is the state that `Pool` describes; in which
order moves follow each other is up to whoever runs the pool.

* Idle interpreters stand in a queue.  Each comes with a *permit*.  A permit is free, or it has been
  granted to a request that has not used it yet, and whoever wants an interpreter from the queue
  needs one.  Requests that find none wait in line, and every new permit goes to the first of them.
* Every interpreter occupies a *slot*, and so does every creation from the moment it is planned.
  `total` counts the occupied slots and does not pass the limit.  A creation nobody waits for any
  more gives its slot up at once, although it goes on to its end.

This file has the state and the moves that the others consist of.
-/

set_option autoImplicit false

namespace ScriptPool

/-- What an interpreter is made for. -/
inductive Purpose where
  /-- For a request, which waits for it. -/
  | request (key : Nat)
  /-- To keep up the number: at the opening, or in place of one that was discarded. -/
  | replacement
  /-- To have more idle ones, on behalf of the scaler. -/
  | growth
  deriving Repr, DecidableEq

/-- An interpreter in the making. -/
structure Creation where
  /-- The number that the interpreter gets. -/
  id : Nat
  /-- What it is for, as long as somebody wants it. -/
  purpose : Option Purpose
  /-- How it turned out, once it has. -/
  outcome : Option (Except InterpreterError Interpreter) := none
  deriving Inhabited

/-- What has happened in a pool since it was opened. -/
structure PoolCounters where
  /-- Interpreters made. -/
  created : Nat := 0
  /-- Interpreters discarded, for whatever reason. -/
  destroyed : Nat := 0
  /-- Interpreters discarded on their return, because they were worn or could not be reset. -/
  recycled : Nat := 0
  creationFailures : Nat := 0
  /-- Requests that had to wait for a permit. -/
  waits : Nat := 0
  requests : Nat := 0
  /-- Interpreters that were warmed up when the pool was opened. -/
  prewarmed : Nat := 0
  /-- Interpreters made on behalf of the scaler. -/
  scaleUps : Nat := 0
  /-- Idle interpreters discarded on behalf of the scaler. -/
  scaleDowns : Nat := 0
  /-- Idle interpreters discarded by sweeps. -/
  evicted : Nat := 0
  deriving Repr, DecidableEq, Inhabited

/-- A pool between two moves. -/
structure Pool where
  config : PoolConfig
  /-- The idle interpreters, the one that has waited longest first. -/
  idle : List Interpreter := []
  /-- The interpreters on loan. -/
  loans : List Interpreter := []
  /-- When each interpreter on loan was lent out. -/
  borrowed : List (Nat × Nat) := []
  /-- Gauges: idle interpreters, interpreters on loan, and occupied slots. -/
  available : Nat := 0
  inUse : Nat := 0
  total : Nat := 0
  /-- Permits that are free. -/
  permits : Nat := 0
  /-- Requests that wait for a permit, first come first. -/
  waiters : List Nat := []
  /-- Requests that were granted a permit and have not used it yet. -/
  granted : List Nat := []
  /-- Creations in the background that have a slot and have not begun. -/
  planned : List Purpose := []
  /-- Creations that have begun, and whose result nobody has taken yet. -/
  creations : List Creation := []
  /-- The number of the next interpreter. -/
  nextId : Nat := 1
  counters : PoolCounters := {}
  /-- The requests of the recent past. -/
  recent : RequestWindow
  loads : LoadTable := []
  memory : MemoryBlocks
  /-- Has it been closed?  Then nothing is lent out any more. -/
  closed : Bool := false
  /-- Has it been emptied after closing?  Then there are no permits any more. -/
  drained : Bool := false
  deriving Inhabited

namespace Pool

/-! ## Slots -/

/-- A gauge that was lowered.  Gauges have 64 bits, and one that is lowered below zero goes on from
the top. -/
def lowered (gauge count : Nat) : Nat :=
  if count ≤ gauge then gauge - count else 2 ^ 64 - (count - gauge)

/-- Occupies a slot, if one is free. -/
def reserve? (p : Pool) : Option Pool :=
  if p.total < p.config.maxSize then some { p with total := p.total + 1 } else none

/-- Gives a slot up. -/
def release (p : Pool) : Pool := { p with total := lowered p.total 1 }

/-! ## Permits

A permit stands for an idle interpreter without being tied to one.  So an interpreter can come into
the queue while somebody waits in line, and be promised to him before he has looked. -/

/-- Makes a permit: it goes to the first request in line, or is free. -/
def addPermit (p : Pool) : Pool :=
  match p.waiters with
  | key :: rest => { p with waiters := rest, granted := p.granted ++ [key] }
  | [] => { p with permits := p.permits + 1 }

/-- Takes a free permit, if there is one. -/
def takePermit? (p : Pool) : Option Pool :=
  if p.drained then none
  else
    match p.permits with
    | n + 1 => some { p with permits := n }
    | 0 => none

/-! ## Interpreters -/

/-- Lets go of an interpreter and of its slot. -/
def discard (p : Pool) (i : Interpreter) : Transition Pool := do
  i.discard
  pure { p with
    loads := p.loads.remove i.id
    total := lowered p.total 1
    counters := { p.counters with destroyed := p.counters.destroyed + 1 } }

/-- Lets go of several interpreters in turn. -/
def discardAll (p : Pool) : List Interpreter → Transition Pool
  | [] => pure p
  | i :: rest => do (← p.discard i).discardAll rest

/-- Puts an interpreter at the end of the queue, with a permit.  In a pool that was closed it is
discarded instead. -/
def addIdle (p : Pool) (i : Interpreter) : Transition Pool :=
  if p.closed then p.discard i
  else pure { p with idle := p.idle ++ [i], available := p.available + 1 }.addPermit

/-- The place in the queue of the interpreter to lend out next. -/
def nextPlace (p : Pool) : Nat :=
  if p.config.enableLoadBalancing && 1 < p.idle.length then
    (p.loads.leastLoaded? (p.idle.map (·.id))).getD 0
  else 0

/-- Takes the next interpreter out of the queue.  The permit for it must have been taken. -/
def takeIdle? (p : Pool) : Option (Interpreter × Pool) :=
  match p.idle[p.nextPlace]? with
  | none => none
  | some i => some (i, { p with
      idle := p.idle.eraseIdx p.nextPlace, available := lowered p.available 1 })

/-- Lends an interpreter out. -/
def lend (p : Pool) (i : Interpreter) (now : Nat) : Pool :=
  { p with
    loans := p.loans ++ [i.lent]
    borrowed := (i.id, now) :: p.borrowed.filter fun entry => entry.1 != i.id
    inUse := p.inUse + 1
    loads := p.loads.begin i.id now }

/-- The interpreter on loan with a number. -/
def loan? (p : Pool) (id : Nat) : Option Interpreter := p.loans.find? fun i => i.id == id

/-- Ends a loan.  The interpreter is nowhere then. -/
def endLoan (p : Pool) (id now : Nat) : Pool :=
  { p with
    loans := p.loans.filter fun i => i.id != id
    borrowed := p.borrowed.filter fun entry => entry.1 != id
    inUse := lowered p.inUse 1
    loads := p.loads.finish id now }

/-- Lets a borrower do something with an interpreter on loan. -/
def onLoan {α : Type} (p : Pool) (id : Nat) (use : Interpreter → Transition (α × Interpreter)) :
    Transition (Option α × Pool) := do
  match p.loan? id with
  | none => pure (none, p)
  | some i =>
      let (a, i) ← use i
      pure (some a, { p with loans := p.loans.map fun other => if other.id == id then i else other })

/-! ## Creations

A creation is planned, begun, ended and taken over, and somebody else may be at work in between.
Its slot is occupied from the plan on. -/

/-- Plans a creation in the background, if the pool is open and has a slot for it. -/
def plan? (p : Pool) (purpose : Purpose) : Option Pool :=
  if p.closed then none
  else p.reserve?.map fun p => { p with planned := p.planned ++ [purpose] }

/-- Begins a creation; its slot must have been reserved. -/
def begin (p : Pool) (purpose : Purpose) : Pool :=
  { p with
    creations := p.creations ++ [{ id := p.nextId, purpose := some purpose }]
    nextId := p.nextId + 1 }

/-- Begins the creation that was planned first, if any was. -/
def beginPlanned? (p : Pool) : Option Pool :=
  match p.planned with
  | [] => none
  | purpose :: rest => some ({ p with planned := rest }.begin purpose)

/-- Notes how a creation turned out. -/
def endCreation (p : Pool) (id : Nat) (outcome : Except InterpreterError Interpreter) : Pool :=
  { p with creations := p.creations.map fun c =>
      if c.id == id then { c with outcome := some outcome } else c }

/-- Forgets a creation. -/
def dropCreation (p : Pool) (id : Nat) : Pool :=
  { p with creations := p.creations.filter fun c => c.id != id }

/-- Counts an interpreter that has been made. -/
def noteCreated (p : Pool) : Pool :=
  { p with counters := { p.counters with created := p.counters.created + 1 } }

/-- Counts an interpreter that has been warmed up. -/
def notePrewarmed (p : Pool) : Pool :=
  { p with counters := { p.counters with prewarmed := p.counters.prewarmed + 1 } }

/-- Gives up the slot of a creation that failed. -/
def noteFailure (p : Pool) : Pool :=
  { p.release with
    counters := { p.counters with creationFailures := p.counters.creationFailures + 1 } }

end Pool
end ScriptPool
