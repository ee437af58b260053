import ScriptPool.Service.Turn

/-!
# Time

A service waits for what it is asked to wait for, and no longer.  While it waits, its timers go off
in order: deadlines of requests, sweeps, and looks of the scaler.
-/

set_option autoImplicit false

namespace ScriptPool

/-- The earlier of two moments. -/
def earlier (a b : Option Nat) : Option Nat :=
  match a, b with
  | some a, some b => some (min a b)
  | some a, none => some a
  | none, b => b

/-- When the time of a request that waits for an interpreter is over. -/
def Request.timer (r : Request) : Option Nat :=
  if r.stage == .acquiring then earlier r.deadline r.cancelAt else none

namespace Service

/-! ## Timers -/

/-- When the next timer goes off. -/
def nextTimer (s : Service) : Option Nat :=
  let stop := s.stopping.bind fun stop => stop.draining.map (·.2)
  s.requests.foldl (fun t r => earlier t r.timer)
    (earlier stop (earlier s.nextLook s.nextSweep))

/-- Sweeps the idle interpreters, and sets the timer for the next sweep. -/
def sweep : Move Unit := do
  let now := (← get).now
  let _ ← onPool fun p => p.sweep now
  modify fun s => { s with nextSweep := some (s.waited + s.pool.config.cleanupInterval.nanos) }

/-- Lets the scaler look at the pool, and sets the timer for its next look.  A scaler that finds the
pool closed or cannot go on looks no more. -/
def scale : Move Unit := do
  let s ← get
  match s.scaler with
  | none => set { s with nextLook := none }
  | some scaler =>
      let (evaluation, scaler, pool) ← act (α := Evaluation × Scaler × Pool) fun w =>
        let (evaluation, scaler, pool, w) :=
          scaler.evaluate (Pool.scaleTarget s.now) (s.pool, w)
        ((evaluation, scaler, pool), w)
      let nextLook := match evaluation with
        | .decided _ => some (s.waited + scaler.settings.interval.nanos)
        | _ => none
      set { s with pool, scaler := some scaler, nextLook }

/-- Lets sweeps and looks that are due take place.  The one that was set earlier comes first. -/
def tick : Move Unit := do
  let s ← get
  let c := s.pool.config
  let lookIfDue : Move Unit := do
    if isDue s.nextLook s.waited then scale
  let sweepIfDue : Move Unit := do
    if isDue s.nextSweep s.waited then sweep
  if c.cleanupInterval.nanos < c.predictionInterval.nanos then
    lookIfDue
    sweepIfDue
  else
    sweepIfDue
    lookIfDue

/-- Waits until a moment, at which timers go off. -/
def waitUntil (moment : Nat) : Move Unit := do
  modify fun s => { s with waited := max s.waited moment }
  tick

/-! ## Waiting -/

/-- How many turns and timers a service goes through before it stops waiting for something that does
not happen. -/
def patience : Nat := 10 ^ 12

/-- Waits for something, and says whether it happened. -/
def await (happened : Service → Bool) : Nat → Move Bool
  | 0 => pure false
  | n + 1 => do
      let s ← get
      if happened s then pure true
      else if ← turn then await happened n
      else
        match s.nextTimer with
        | none => pure false
        | some t => do
            waitUntil t
            await happened n

/-- Waits until a moment, while timers go off. -/
def advanceTo (moment : Nat) : Nat → Move Unit
  | 0 => pure ()
  | n + 1 => do
      if ← turn then advanceTo moment n
      else
        match (← get).nextTimer with
        | some t =>
            if t ≤ moment then
              waitUntil t
              advanceTo moment n
            else waitUntil moment
        | none => waitUntil moment

/-- Waits for a span of time, while timers go off. -/
def advance (span : Duration) : Move Unit := do
  advanceTo ((← get).waited + span.nanos) patience

/-- Makes all moves that can be made without waiting. -/
def rest : Move Unit := settle patience

/-- Lets time pass on the clock on the wall only. -/
def age (span : Duration) : Move Unit := modify fun s => { s with now := s.now + span.nanos }

end Service
end ScriptPool
