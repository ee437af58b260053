import ScriptPool.Service.Basic

/-!
# What happens next

`Service.turn` makes one move, if there is one to make without waiting.  Requests come first: those
that have not begun, those that were granted a permit, those that a closed pool turns away, and
those whose time is over.  Then come creations, planned ones and finished ones, and requests whose
script has been run; then the next piece of work; and last a shutdown, which is waiting for all of
this.
-/

set_option autoImplicit false

namespace ScriptPool

/-- Has a timer gone off? -/
def isDue (timer : Option Nat) (waited : Nat) : Bool :=
  match timer with
  | some t => t ≤ waited
  | none => false

namespace Request

/-- Why a request must be given up, if its time is over. -/
def overdue? (r : Request) (waited : Nat) : Option PoolError :=
  if isDue r.deadline waited then some (.exhausted (r.limit.getD .zero))
  else if isDue r.cancelAt waited then some .canceled
  else none

/-- Is a request one that warms an interpreter up? -/
def isWarming (r : Request) : Bool :=
  match r.errand with
  | .warm _ => true
  | _ => false

end Request

namespace Service

/-! ## Requests -/

/-- Goes on with a request that got an interpreter. -/
def obtained (r : Request) (id : Nat) : Move Unit := do
  match r.errand with
  | .keep =>
      finish r.key (.loan (.ok id))
      dropRequest r.key
  | .warm none =>
      changePool fun p => pure p.notePrewarmed
      giveBack id
      dropRequest r.key
  | _ =>
      setStage r.key (.working id)
      addJob (.run r.key)

/-- Ends a request that got none. -/
def refused (r : Request) (cause : PoolError) : Move Unit := do
  match r.errand with
  | .keep => finish r.key (.loan (.error cause))
  | .warm _ => pure ()
  | .execute _ _ _ => finish r.key (.execution (.error (.pool cause)))
  dropRequest r.key

/-- Gives a request up if its time is over. -/
def expire (r : Request) : Move Unit := do
  match r.overdue? (← get).waited with
  | none => pure ()
  | some cause =>
      changePool fun p => pure (p.giveUp r.key)
      refused r cause

/-- Goes on with a request as it has come so far. -/
def proceed (r : Request) : Progress → Move Unit
  | .lent id => obtained r id
  | .failed cause => refused r cause
  | .creating id => do
      setStage r.key .acquiring
      addJob (.create id)
      expire r
  | .waiting => do
      setStage r.key .acquiring
      expire r

/-- Begins a request. -/
def start (r : Request) : Move Unit := do
  let now := (← get).now
  proceed r (← onPool fun p => p.request r.key now)

/-- Goes on with a request that was granted a permit. -/
def resume (r : Request) : Move Unit := do
  let now := (← get).now
  proceed r (← onPool fun p => p.resume r.key now)

/-- Ends a request whose script has been run to warm an interpreter up. -/
def warmed (r : Request) (id : Nat) (succeeded : Bool) : Move Unit := do
  if succeeded then changePool fun p => pure p.notePrewarmed
  giveBack id
  dropRequest r.key

/-! ## Creations and work -/

/-- Takes over what came of a creation. -/
def collect (c : Creation) (outcome : Except InterpreterError Interpreter) : Move Unit := do
  let now := (← get).now
  match ← onPool fun p => p.collect c outcome now with
  | none => pure ()
  | some (key, progress) =>
      match (← get).request? key with
      | none => pure ()
      | some r => proceed r progress

/-- Runs the script of a request.  An interpreter that has executed a script goes back at once. -/
def runScript (r : Request) (id : Nat) : Move Unit := do
  match r.errand with
  | .keep => pure ()
  | .warm script =>
      let result ← onPool fun p => p.onLoan id fun i => i.run (script.getD [])
      let succeeded := match result with
        | some (.ok _) => true
        | _ => false
      setStage r.key (.worked id succeeded)
  | .execute converter script globals =>
      let result ← onPool fun p => p.onLoan id fun i => i.execute converter script globals
      giveBack id
      match result with
      | some outcome => finish r.key (.execution outcome)
      | none => pure ()
      dropRequest r.key

/-- Does a piece of work. -/
def work : Job → Move Unit
  | .create id => do
      let outcome ← make id
      changePool fun p => pure (p.endCreation id outcome)
  | .run key => do
      match (← get).request? key with
      | some r =>
          match r.stage with
          | .working id => runScript r id
          | _ => pure ()
      | none => pure ()

/-! ## Shutting down -/

/-- How often a shutdown looks whether all interpreters are back. -/
def drainPoll : Duration := .ofMillis 50

/-- Empties the pool and ends the shutdown. -/
def drained (stop : Shutdown) (outcome : Except PoolError Unit) : Move Unit := do
  changePool fun p => p.drain
  modify fun s => { s with stopping := none }
  finish stop.key (.shutdown outcome)

/-- Looks whether all interpreters are back. -/
def look (stop : Shutdown) (deadline : Nat) : Move Unit := do
  let s ← get
  if s.pool.inUse = 0 then drained stop (.ok ())
  else if deadline ≤ s.now then drained stop (.error (.shutdownTimeout s.pool.inUse))
  else
    let next := s.waited + drainPoll.nanos
    set { s with stopping := some { stop with draining := some (deadline, next) } }

/-- Are there interpreters still to be warmed up? -/
def isWarming (s : Service) : Bool := s.requests.any Request.isWarming

/-- Goes on with a shutdown, if it has something to do now. -/
def stop? (s : Service) : Option (Move Unit) :=
  match s.stopping with
  | none => none
  | some stop =>
      match stop.draining with
      | none => if s.isWarming then none else some (look stop (s.now + stop.timeout.nanos))
      | some (deadline, next) => if next ≤ s.waited then some (look stop deadline) else none

/-! ## Turns

The order of these is fixed, so a service is a function of what it is asked.  What is proved about
pools does not depend on it. -/

/-- A request in need of attention, and what is to be done about it. -/
def attend? (s : Service) : Option (Move Unit) :=
  match s.requests.find? fun r => r.stage == .fresh with
  | some r => some (start r)
  | none =>
      match s.pool.granted.head?.bind s.request? with
      | some r => some (resume r)
      | none =>
          match if s.pool.closed then s.pool.waiters.head?.bind s.request? else none with
          | some r => some do
              changePool fun p => pure (p.turnAway r.key)
              refused r .closed
          | none =>
              let due (r : Request) : Bool :=
                r.stage == .acquiring && (r.overdue? s.waited).isSome
              (s.requests.find? due).map expire

/-- A creation or a script that has ended, with what is to be done about it. -/
def conclude? (s : Service) : Option (Move Unit) :=
  let ended (c : Creation) : Option (Move Unit) := c.outcome.map (collect c)
  match s.pool.creations.findSome? ended with
  | some move => some move
  | none => s.requests.findSome? fun r =>
      match r.stage with
      | .worked id succeeded => some (warmed r id succeeded)
      | _ => none

/-- Begins the creation that was planned first. -/
def beginPlanned? (s : Service) : Option (Move Unit) :=
  s.pool.beginPlanned?.map fun pool => do
    set { s with pool }
    addJob (.create s.pool.nextId)

/-- The next piece of work. -/
def work? (s : Service) : Option (Move Unit) :=
  match s.jobs with
  | [] => none
  | job :: jobs => some do
      set { s with jobs }
      work job

/-- The next move, if there is one to make without waiting. -/
def next? (s : Service) : Option (Move Unit) :=
  s.attend? <|> s.beginPlanned? <|> s.conclude? <|> s.work? <|> s.stop?

/-- Makes the next move; says whether there was one. -/
def turn : Move Bool := do
  match (← get).next? with
  | some move =>
      move
      pure true
  | none => pure false

/-- Makes moves until there is none left, but so many at most. -/
def settle : Nat → Move Unit
  | 0 => pure ()
  | n + 1 => do
      if ← turn then settle n

end Service
end ScriptPool
