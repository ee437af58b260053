import ScriptPool.Pool.Basic

/-!
# Asking for an interpreter

A request is met from the queue of idle interpreters if there is a free permit, otherwise by a new
interpreter if there is a free slot, and otherwise it waits in line for a permit.  It can be given
up wherever it waits: in line, with a permit granted and not used, or for a new interpreter.

Every request has a key, by which it is known to the pool as long as it waits for something.
-/

set_option autoImplicit false

namespace ScriptPool

/-- How far a request has come. -/
inductive Progress where
  /-- It has been lent the interpreter of this number. -/
  | lent (id : Nat)
  | failed (cause : PoolError)
  /-- It waits for the interpreter of this number to be made. -/
  | creating (id : Nat)
  /-- It waits in line. -/
  | waiting
  deriving Repr, DecidableEq

namespace Pool

/-- Takes the next interpreter out of the queue, the permit for it having been taken.  One that is
marked as running a script is not lent out but discarded. -/
def checkOut (p : Pool) : Transition (Option Interpreter × Pool) :=
  match p.takeIdle? with
  | none => pure (none, p)
  | some (i, p) =>
      if i.executing then do pure (none, ← p.discard i)
      else pure (some i, p)

/-- Tries free permits until one of them gets an interpreter; so many permits are tried at most. -/
def checkOutAny : Nat → Pool → Transition (Option Interpreter × Pool)
  | 0, p => pure (none, p)
  | n + 1, p =>
      match p.takePermit? with
      | none => pure (none, p)
      | some p => do
          match ← p.checkOut with
          | (some i, p) => pure (some i, p)
          | (none, p) => checkOutAny n p

/-- Counts a request that waits in line. -/
def noteWait (p : Pool) : Pool :=
  { p with counters := { p.counters with waits := p.counters.waits + 1 } }

/-- Serves a request as far as possible.  It is counted as waiting the first time only. -/
def serve (p : Pool) (key now : Nat) (waitedBefore : Bool) : Transition (Progress × Pool) := do
  if p.closed then return (.failed .closed, p)
  match ← checkOutAny p.permits p with
  | (some i, p) => pure (.lent i.id, p.lend i now)
  | (none, p) =>
      match p.reserve? with
      | some p => pure (.creating p.nextId, p.begin (.request key))
      | none =>
          let p := if waitedBefore then p else p.noteWait
          pure (.waiting, { p with waiters := p.waiters ++ [key] })

/-- Begins a request. -/
def request (p : Pool) (key now : Nat) : Transition (Progress × Pool) :=
  { p with
    counters := { p.counters with requests := p.counters.requests + 1 }
    recent := p.recent.record now }.serve key now false

/-- Goes on with a request that was granted a permit. -/
def resume (p : Pool) (key now : Nat) : Transition (Progress × Pool) := do
  match ← { p with granted := p.granted.erase key }.checkOut with
  | (some i, p) => pure (.lent i.id, p.lend i now)
  | (none, p) => p.serve key now true

/-- Turns away a request that waits in line. -/
def turnAway (p : Pool) (key : Nat) : Pool := { p with waiters := p.waiters.erase key }

/-- Is a creation for this request? -/
def Creation.isFor (c : Creation) (key : Nat) : Bool := c.purpose == some (.request key)

/-- Gives up a request, wherever it waits.  A permit that it was granted goes to the next in line;
the slot of an interpreter that it waits for becomes free, and nobody wants that interpreter any
more. -/
def giveUp (p : Pool) (key : Nat) : Pool :=
  if p.granted.contains key then { p with granted := p.granted.erase key }.addPermit
  else if p.creations.any (Creation.isFor · key) then
    { p.release with creations := p.creations.map fun c =>
        if Creation.isFor c key then { c with purpose := none } else c }
  else p.turnAway key

/-- Takes over what came of a creation.  Says which request was served, and how. -/
def collect (p : Pool) (c : Creation) (outcome : Except InterpreterError Interpreter) (now : Nat) :
    Transition (Option (Nat × Progress) × Pool) := do
  let p := p.dropCreation c.id
  match c.purpose, outcome with
  | some (.request key), .ok i =>
      pure (some (key, .lent i.id), p.noteCreated.lend i now)
  | some .replacement, .ok i => return (none, ← p.noteCreated.addIdle i)
  | some .growth, .ok i =>
      let p := p.noteCreated
      let p := { p with counters := { p.counters with scaleUps := p.counters.scaleUps + 1 } }
      return (none, ← p.addIdle i)
  | some (.request key), .error e =>
      pure (some (key, .failed (.creationFailed e.message)), p.noteFailure)
  | some _, .error _ => pure (none, p.noteFailure)
  | none, .ok i =>
      i.discard
      pure (none, p)
  | none, .error _ => pure (none, p)

end Pool
end ScriptPool
