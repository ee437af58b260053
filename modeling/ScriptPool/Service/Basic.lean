import ScriptPool.Interpreter.Execute
import ScriptPool.Pool.Lifetime
import ScriptPool.Pool.Request
import ScriptPool.Pool.Return
import ScriptPool.Pool.Sizing

/-!
# A pool at work

A `Service` runs a pool: it decides in which order moves follow each other, knows what requests want
with an interpreter, and keeps the time.

There are two clocks.  `now` is what a clock on the wall shows; moments that are written down, such
as when an interpreter was handed back, are read from it.  `waited` is how long the service has
waited so far; timers go by it.  Everything else takes no time, so it is only waiting that lets
timers go off.
-/

set_option autoImplicit false

namespace ScriptPool

/-- Where interpreters come from. -/
structure Factory where
  limits : ResourceLimits
  /-- Why nothing can be made at present, if that is so. -/
  fault : Option String := none
  /-- How often it was tried to make one while nothing stood against it. -/
  built : Nat := 0
  deriving Inhabited

/-- What a request wants with an interpreter. -/
inductive Errand where
  /-- To hand it over. -/
  | keep
  /-- To warm it up with a script, if there is one. -/
  | warm (script : Option Script)
  /-- To execute a script on it, with values bound to globals. -/
  | execute (converter : Converter) (script : Script) (globals : List (String × Value))

/-- Where a request is. -/
inductive Stage where
  /-- It has not begun. -/
  | fresh
  /-- It waits for an interpreter. -/
  | acquiring
  /-- It has the interpreter of this number, and its script is to be run. -/
  | working (id : Nat)
  /-- Its script has been run, with or without success. -/
  | worked (id : Nat) (succeeded : Bool)
  deriving DecidableEq

/-- A request on its way. -/
structure Request where
  /-- What the pool knows it by. -/
  key : Nat
  errand : Errand
  /-- How long it may wait for an interpreter, and until when. -/
  limit : Option Duration := none
  deadline : Option Nat := none
  /-- When it is called off. -/
  cancelAt : Option Nat := none
  stage : Stage := .fresh

/-- Work that is done one piece after the other. -/
inductive Job where
  /-- Makes the interpreter of a number. -/
  | create (id : Nat)
  /-- Runs the script of a request. -/
  | run (key : Nat)
  deriving DecidableEq

/-- How something that somebody may wait for has ended. -/
inductive Ending where
  | loan (outcome : Except PoolError Nat)
  | execution (outcome : Except ExecutionError Value)
  | shutdown (outcome : Except PoolError Unit)

/-- A shutdown on its way. -/
structure Shutdown where
  key : Nat
  /-- How long it waits for interpreters on loan. -/
  timeout : Duration
  /-- Until when that is, once it has begun to wait, and when it looks next. -/
  draining : Option (Nat × Nat) := none

/-- A pool at work. -/
structure Service where
  pool : Pool
  factory : Factory
  /-- What the clock on the wall shows, in nanoseconds. -/
  now : Nat := 0
  /-- How long the service has waited, in nanoseconds. -/
  waited : Nat := 0
  scaler : Option Scaler := none
  /-- When the scaler looks next, and when the next sweep is due. -/
  nextLook : Option Nat := none
  nextSweep : Option Nat := none
  /-- The requests on their way, in order. -/
  requests : List Request := []
  /-- The work to do, in order. -/
  jobs : List Job := []
  stopping : Option Shutdown := none
  /-- What has ended and was not picked up yet. -/
  endings : List (Nat × Ending) := []
  nextKey : Nat := 1

namespace Service

/-- A step of a service. -/
abbrev Move := StateT Service Transition

variable {α : Type}

/-- Lets the world change. -/
def act (t : Transition α) : Move α := StateT.lift t

/-- Lets the pool and the world change. -/
def onPool (t : Pool → Transition (α × Pool)) : Move α := do
  let s ← get
  let (a, pool) ← act (t s.pool)
  set { s with pool }
  pure a

/-- Lets the pool and the world change, for the sake of the change. -/
def changePool (t : Pool → Transition Pool) : Move Unit :=
  onPool fun p => return ((), ← t p)

/-- Makes an interpreter, if nothing stands against it. -/
def make (id : Nat) : Move (Except InterpreterError Interpreter) := do
  let s ← get
  match s.factory.fault with
  | some reason => pure (.error (.creation reason))
  | none =>
      set { s with factory := { s.factory with built := s.factory.built + 1 } }
      act (World.newInterpreter s.factory.limits id s.now)

/-- A key that was not used yet. -/
def newKey : Move Nat :=
  modifyGet fun s => (s.nextKey, { s with nextKey := s.nextKey + 1 })

/-- Hands an interpreter back. -/
def giveBack (id : Nat) : Move Unit := do
  let now := (← get).now
  changePool fun p => p.giveBack id now

/-- The request of a key. -/
def request? (s : Service) (key : Nat) : Option Request := s.requests.find? fun r => r.key == key

/-- Forgets a request. -/
def dropRequest (key : Nat) : Move Unit :=
  modify fun s => { s with requests := s.requests.filter fun r => r.key != key }

/-- Brings a request to a stage. -/
def setStage (key : Nat) (stage : Stage) : Move Unit :=
  modify fun s => { s with requests := s.requests.map fun r =>
    if r.key == key then { r with stage } else r }

/-- Adds work to do. -/
def addJob (job : Job) : Move Unit := modify fun s => { s with jobs := s.jobs ++ [job] }

/-- Ends something that somebody may wait for. -/
def finish (key : Nat) (ending : Ending) : Move Unit :=
  modify fun s => { s with endings := s.endings ++ [(key, ending)] }

end Service
end ScriptPool
