import ScriptPool.Pool.Lifetime
import ScriptPool.Pool.Request
import ScriptPool.Pool.Return
import ScriptPool.Pool.Sizing
import ScriptPool.Proofs.Transition

/-!
# What can happen to a pool

A pool changes by moves, each of which runs to its end: what a request does up to where it waits,
what a creation does when it has ended, a return, a sweep.  Which move comes next is not up to the
pool, so everything that is proved about pools is proved about *runs*: sequences of moves in any
order that the guards below allow.

## What is here

* `Move` — the moves, each with what is not up to the pool: who asks, when, how a creation turned
  out, what a borrower does.  `Move.apply` is what the pool makes of it.
* `Move.Allowed` — when a move can occur at all.  A request begins under a key that is not in use;
  only a request that was granted a permit goes on; a creation ends once, with an interpreter of the
  number it was begun for; a borrower cannot change who the interpreter is.
* `Opened` — the pools a run starts from: made for a configuration and filled with the minimal
  number of interpreters.
* `Run` — a run, with the moves made so far, the latest first, and with the interpreters the pool
  was opened with.  The world a move runs in is arbitrary at every step, so nothing is assumed about
  what the guest states do in between.

A request that is given up, by a deadline or by whoever waits for it, is one move, `giveUp`,
wherever the request stands at that moment.  In a closed pool a request in line is turned away; one
that was granted a permit may still use it, or give it up.
-/

set_option autoImplicit false

namespace ScriptPool
namespace Pool

/-! ## What the pool is busy with -/

/-- The request that waits for a creation, if one does. -/
def Creation.key? (c : Creation) : Option Nat :=
  match c.purpose with
  | some (.request key) => some key
  | _ => none

/-- The requests on their way: in line, with a permit, or waiting for a creation. -/
def keys (p : Pool) : List Nat := p.waiters ++ p.granted ++ p.creations.filterMap Creation.key?

/-- The slots that are reserved for interpreters that do not exist yet. -/
def reserved (p : Pool) : Nat := p.planned.length + p.creations.countP fun c => c.purpose.isSome

/-- The numbers that are in use: of idle interpreters, of interpreters on loan, and of creations. -/
def numbers (p : Pool) : List Nat :=
  p.idle.map (·.id) ++ p.loans.map (·.id) ++ p.creations.map (·.id)

/-- What somebody does with an interpreter on loan: run a script, break down in the middle of it,
and so on.  It may leave the interpreter marked as executing or as tainted, but it stays the same
interpreter and the record of its use stays the same. -/
def IsUse (use : Interpreter → Transition (Unit × Interpreter)) : Prop :=
  ∀ i, Transition.Ensures (use i) fun r =>
    ∃ executing tainted wasReset, r.2 = { i with executing, tainted, wasReset }

/-- What is given back of an operation that has a result besides. -/
def droppingResult {α : Type} (use : Interpreter → Transition (α × Interpreter)) (i : Interpreter) :
    Transition (Unit × Interpreter) := return ((), (← use i).2)

/-- Running a script is a use. -/
theorem isUse_run (script : Script) : IsUse (droppingResult fun i => i.run script) := fun i =>
  (i.ensures_run script).bind fun _ hr =>
    let ⟨tainted, h⟩ := hr
    Transition.ensures_pure ⟨i.executing, tainted, i.wasReset, h⟩

/-- Executing a script with values of the host is a use. -/
theorem isUse_execute (c : Converter) (script : Script) (globals : List (String × Value)) :
    IsUse (droppingResult fun i => i.execute c script globals) := fun i =>
  (i.ensures_execute c script globals).bind fun _ hr =>
    let ⟨tainted, h⟩ := hr
    Transition.ensures_pure ⟨i.executing, tainted, i.wasReset, h⟩

/-! ## Moves

There is no thread and no lock here.  A move is what somebody does without letting go of the pool,
and where he waits another move may come in between. -/

/-- What happens to a pool. -/
inductive Move where
  /-- A request begins. -/
  | request (key now : Nat)
  /-- A request that was granted a permit goes on. -/
  | resume (key now : Nat)
  /-- A request in line is told that the pool was closed. -/
  | turnAway (key : Nat)
  /-- A request is given up, wherever it waits. -/
  | giveUp (key : Nat)
  /-- A creation that was planned begins. -/
  | begin (purpose : Purpose)
  /-- A creation ends. -/
  | endCreation (id : Nat) (outcome : Except InterpreterError Interpreter)
  /-- What came of a creation is taken over. -/
  | collect (c : Creation) (outcome : Except InterpreterError Interpreter) (now : Nat)
  /-- An interpreter is handed back. -/
  | giveBack (id now : Nat)
  /-- A borrower does something with an interpreter. -/
  | onLoan (id : Nat) (use : Interpreter → Transition (Unit × Interpreter))
  | grow (count : Nat)
  | shrink (count : Nat)
  | sweep (now : Nat)
  /-- The scaler looks at the pool. -/
  | look (now : Nat)
  /-- An interpreter was warmed up. -/
  | notePrewarmed
  /-- A scratch block is taken or put back. -/
  | scratch (change : MemoryBlocks → MemoryBlocks)
  | close
  | drain

namespace Move

/-- What the pool makes of a move. -/
def apply (p : Pool) : Move → Transition Pool
  | .request key now => return (← p.request key now).2
  | .resume key now => return (← p.resume key now).2
  | .turnAway key => pure (p.turnAway key)
  | .giveUp key => pure (p.giveUp key)
  | .begin purpose => pure ({ p with planned := p.planned.erase purpose }.begin purpose)
  | .endCreation id outcome => pure (p.endCreation id outcome)
  | .collect c outcome now => return (← p.collect c outcome now).2
  | .giveBack id now => p.giveBack id now
  | .onLoan id use => return (← p.onLoan id use).2
  | .grow count => pure (p.grow count).2
  | .shrink count => return (← p.shrink count).2
  | .sweep now => return (← p.sweep now).2
  | .look now => pure (p.snapshot now).2
  | .notePrewarmed => pure p.notePrewarmed
  | .scratch change => pure { p with memory := change p.memory }
  | .close => pure p.close
  | .drain => p.drain

/-- When a move can occur. -/
def Allowed (p : Pool) : Move → Prop
  | .request key _ => key ∉ p.keys
  | .resume key _ => key ∈ p.granted
  | .turnAway key => p.closed = true ∧ key ∈ p.waiters
  | .giveUp key => key ∈ p.keys
  | .begin purpose => purpose ∈ p.planned
  | .endCreation id outcome =>
      (∃ c ∈ p.creations, c.id = id ∧ c.outcome.isNone) ∧ ∀ i, outcome = .ok i → i.id = id
  | .collect c outcome _ => c ∈ p.creations ∧ c.outcome = some outcome
  | .giveBack id _ => id ∈ p.loans.map (·.id)
  | .onLoan id use => id ∈ p.loans.map (·.id) ∧ IsUse use
  | .drain => p.closed = true ∧ p.drained = false
  | _ => True

/-- The interpreter that comes into being by a move, if one does. -/
def made? : Move → Option Interpreter
  | .endCreation _ (.ok i) => some i
  | _ => none

end Move

/-! ## Runs

Opening a pool is not a move, since nobody else can get at the pool meanwhile.  Runs start when it
is over. -/

/-- A pool that is being opened: interpreters are made for it one after the other, up to the minimal
number.  `made` are the interpreters it has got so far, the latest first. -/
inductive Opening (config : PoolConfig) : List Interpreter → Pool → Prop where
  | empty {p : Pool} (h : ofConfig config = .ok p) : Opening config [] p
  | more {made : List Interpreter} {p q p' : Pool} {i : Interpreter} {now : Nat} {w w' : World}
      (h : Opening config made p) (below : p.total < p.config.minSize) (slot : p.reserve? = some q)
      (number : i.id = q.nextId)
      (r : ((q.begin .replacement).collect { id := q.nextId, purpose := some .replacement }
        (.ok i) now).run w = ((none, p'), w')) :
      Opening config (i :: made) p'

/-- A pool that has just been opened. -/
def Opened (config : PoolConfig) (made : List Interpreter) (p : Pool) : Prop :=
  Opening config made p ∧ p.config.minSize ≤ p.total

/-- One move of a pool, in some world. -/
def Step (p : Pool) (m : Move) (p' : Pool) : Prop :=
  m.Allowed p ∧ ∃ w w' : World, (m.apply p).run w = (p', w')

/-- A run of a pool for a configuration: the interpreters it was opened with, the moves since then,
the latest first, and what has become of the pool. -/
inductive Run (config : PoolConfig) (opened : List Interpreter) : List Move → Pool → Prop where
  | start {p : Pool} (h : Opened config opened p) : Run config opened [] p
  | step {ms : List Move} {p p' : Pool} {m : Move} (h : Run config opened ms p)
      (s : Step p m p') : Run config opened (m :: ms) p'

/-- All interpreters that have come into being in a run. -/
def madeIn (opened : List Interpreter) (ms : List Move) : List Interpreter :=
  ms.filterMap Move.made? ++ opened

end Pool
end ScriptPool
