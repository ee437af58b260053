import ScriptPool.Service.Time

/-!
# Using a service

What can be asked of a service from outside: to borrow an interpreter and to hand it back, to
execute a script, to wait until interpreters are warmed up, and to shut down.  Whoever asks waits
for the answer.  What is asked for in the background is only begun, and the answer is picked up
later, by the key that was given for it.
-/

set_option autoImplicit false

namespace ScriptPool
namespace Service

/-! ## Opening -/

/-- Makes so many idle interpreters, one after the other.  The first failure ends it. -/
def populate : Nat → Move (Except PoolError Unit)
  | 0 => pure (.ok ())
  | n + 1 => do
      let s ← get
      match s.pool.reserve? with
      | none => pure (.ok ())
      | some pool => do
          let id := pool.nextId
          set { s with pool := pool.begin .replacement }
          let outcome ← make id
          let _ ← onPool fun p => p.collect { id, purpose := some .replacement } outcome s.now
          match outcome with
          | .error e => pure (.error (.creationFailed e.message))
          | .ok _ => populate n

/-- Adds so many requests that warm interpreters up. -/
def addWarming (script : Option Script) (limit : Duration) : Nat → Move Unit
  | 0 => pure ()
  | n + 1 => do
      let key ← newKey
      let r : Request := { key, errand := .warm script, limit, deadline := limit.nanos }
      modify fun s => { s with requests := s.requests ++ [r] }
      addWarming script limit n

/-- Sets the first timers, and has interpreters warmed up. -/
def launch : Move Unit := do
  let c := (← get).pool.config
  modify fun s => { s with nextSweep := c.cleanupInterval.nanos }
  if c.enablePredictiveScaling then
    modify fun s => { s with
      scaler := some (.new c.scalerSettings), nextLook := c.predictionInterval.nanos }
  let w ← act get
  if c.enablePreWarming then
    addWarming (c.preWarmScript.map w.language.read) c.preWarmTimeout c.preWarmOnInit

/-- Opens a pool. -/
def launched : Move (Except PoolError Unit) := do
  match ← populate (← get).pool.config.minSize with
  | .error e => pure (.error e)
  | .ok () =>
      launch
      pure (.ok ())

/-- A service with a new pool.  Its interpreters come from a source against which something may
stand. -/
def ofConfig (config : PoolConfig) (fault : Option String) : Transition (Except PoolError Service) := do
  match Pool.ofConfig config with
  | .error e => pure (.error e)
  | .ok pool =>
      let (result, s) ← launched.run { pool, factory := { limits := config.limits, fault } }
      pure (result.map fun _ => s)

/-! ## Requests -/

/-- Adds a request: it may wait for an interpreter for as long as the limit says, and is called off
after another span of time. -/
def submit (errand : Errand) (limit cancelAfter : Option Duration) : Move Request := do
  let key ← newKey
  let s ← get
  let moment (d : Duration) : Nat := s.waited + d.nanos
  let r : Request :=
    { key, errand, limit, deadline := limit.map moment, cancelAt := cancelAfter.map moment }
  set { s with requests := s.requests ++ [r] }
  pure r

/-- How something has ended, if it has. -/
def ending? (s : Service) (key : Nat) : Option Ending := s.endings.lookup key

/-- Picks up how something has ended. -/
def takeEnding (key : Nat) : Move (Option Ending) := do
  let s ← get
  set { s with endings := s.endings.filter fun entry => entry.1 != key }
  pure (s.ending? key)

/-- Waits for the end of something. -/
def awaitEnding (key : Nat) : Move (Option Ending) := do
  let _ ← await (fun s => (s.ending? key).isSome) patience
  takeEnding key

/-- The limit of requests that come with none. -/
def usualLimit : Move (Option Duration) := do
  pure (← get).pool.config.acquireTimeout

/-- Borrows an interpreter; the answer is its number. -/
def borrow (limit cancelAfter : Option Duration) : Move (Except PoolError Nat) := do
  let r ← submit .keep (limit <|> (← usualLimit)) cancelAfter
  start r
  match ← awaitEnding r.key with
  | some (.loan outcome) => pure outcome
  | _ => pure (.error .canceled)

/-- Begins to borrow an interpreter in the background. -/
def borrowLater (limit : Option Duration) : Move Nat := do
  return (← submit .keep (limit <|> (← usualLimit)) none).key

/-- Gives up what was begun in the background. -/
def abort (key : Nat) : Move Unit := do
  changePool fun p => pure (p.giveUp key)
  dropRequest key

/-- Executes a script on a borrowed interpreter, with values bound to globals. -/
def execute (converter : Converter) (script : Script) (globals : List (String × Value)) :
    Move (Except ExecutionError Value) := do
  let r ← submit (.execute converter script globals) (← usualLimit) none
  start r
  match ← awaitEnding r.key with
  | some (.execution outcome) => pure outcome
  | _ => pure (.error (.task "no answer"))

/-- Waits until all interpreters have been warmed up that were to be. -/
def awaitWarming : Move Unit := do
  let _ ← await (fun s => !s.isWarming) patience

/-! ## Shutting down

Whoever begins a shutdown closes the pool at once; the rest is done in turns of the service while he
waits. -/

/-- Begins to shut down.  Where that was begun before, there is nothing to do. -/
def shutDownLater (timeout : Duration) : Move Nat := do
  let key ← newKey
  let s ← get
  if s.pool.closed then finish key (.shutdown (.ok ()))
  else set { s with
    pool := s.pool.close, stopping := some { key, timeout }, nextLook := none, nextSweep := none }
  pure key

/-- Lets the time pass for which a shutdown waits for interpreters on loan. -/
def passDeadline : Move Unit := do
  modify fun s =>
    match s.stopping.bind (·.draining) with
    | some (deadline, next) => { s with now := max s.now deadline, waited := max s.waited next }
    | none => s

/-- Waits for the end of a shutdown.  Interpreters that are on loan now do not come back while one
waits. -/
def awaitShutdown (key : Nat) : Move (Except PoolError Unit) := do
  rest
  if ((← get).ending? key).isNone then
    passDeadline
    rest
  match ← takeEnding key with
  | some (.shutdown outcome) => pure outcome
  | _ => pure (.error .canceled)

/-- Shuts down: the pool is closed at once, and drained when all interpreters are back or the time
for that is over. -/
def shutDown (timeout : Duration) : Move (Except PoolError Unit) := do
  awaitShutdown (← shutDownLater timeout)

/-! ## The end -/

/-- Makes the interpreters that were planned, at once. -/
def createPlanned : Nat → Move Unit
  | 0 => pure ()
  | n + 1 => do
      let s ← get
      match s.pool.planned with
      | [] => pure ()
      | purpose :: planned => do
          let id := s.pool.nextId
          set { s with pool := { s.pool with planned }.begin purpose }
          let outcome ← make id
          let _ ← onPool fun p => p.collect { id, purpose := some purpose } outcome s.now
          createPlanned n

/-- Gives up whatever goes on in the background. -/
def stopBackground : Move Unit := do
  for r in (← get).requests do
    abort r.key
  modify fun s => { s with jobs := [], nextLook := none, nextSweep := none, stopping := none }

/-- Hands an interpreter back after everything in the background has stopped. -/
def giveBackAlone (id : Nat) : Move Unit := do
  giveBack id
  createPlanned (← get).pool.planned.length

end Service
end ScriptPool
