import ScriptPool.Pool.Basic
import ScriptPool.Scaling.Scaler

/-!
# Changing the number of interpreters

Sweeps evict idle interpreters that were not used for long or are in bad shape, and fill up to the
minimal size; the scaler has interpreters made and idle ones discarded.

Nobody takes an interpreter from the queue without a free permit: those that are granted belong to
requests that are about to take an interpreter.
-/

set_option autoImplicit false

namespace ScriptPool
namespace Pool

/-! ## Sweeping -/

/-- Is an idle interpreter to be evicted? -/
def isStale (c : PoolConfig) (now : Nat) (i : Interpreter) : Bool :=
  c.idleTimeout.nanos < now - i.lastUsed || i.health now < c.healthThreshold

/-- The stale ones among some interpreters, but so many at most, and the others. -/
def splitStale (stale : Interpreter → Bool) :
    Nat → List Interpreter → List Interpreter × List Interpreter
  | _, [] => ([], [])
  | n, i :: rest =>
      if stale i then
        match n with
        | 0 => ([], i :: rest)
        | n + 1 =>
            let (out, kept) := splitStale stale n rest
            (i :: out, kept)
      else
        let (out, kept) := splitStale stale n rest
        (out, i :: kept)

/-- Plans so many replacements, as far as possible. -/
def refill : Nat → Pool → Pool
  | 0, p => p
  | n + 1, p =>
      match p.plan? .replacement with
      | some p => refill n p
      | none => p

/-- Evicts stale interpreters, each against a free permit, and plans replacements up to the minimal
size.  Says how many were evicted. -/
def sweep (p : Pool) (now : Nat) : Transition (Nat × Pool) := do
  let free := if p.drained then 0 else p.permits
  let (out, idle) := splitStale (isStale p.config now) free p.idle
  let count := out.length
  let p := { p with
    idle, permits := p.permits - count, available := lowered p.available count
    counters := { p.counters with evicted := p.counters.evicted + count } }
  let p ← p.discardAll out
  pure (count, refill (p.config.minSize - p.total) p)

/-! ## Scaling

A scaler looks at a pool and asks for a change of its size.  Both ways go one interpreter at a time,
and whether there is one more to be had is looked at each time anew. -/

/-- Plans so many creations, as far as possible.  Says how many were planned. -/
def grow : Nat → Pool → Nat × Pool
  | 0, p => (0, p)
  | n + 1, p =>
      match p.plan? .growth with
      | none => (0, p)
      | some p =>
          let (count, p) := grow n p
          (count + 1, p)

/-- Discards so many idle interpreters from the end of the queue, but none below the minimal size,
and each against a free permit.  Says how many were discarded. -/
def shrink : Nat → Pool → Transition (Nat × Pool)
  | 0, p => pure (0, p)
  | n + 1, p =>
      if p.total ≤ p.config.minSize then pure (0, p)
      else
        match p.takePermit? with
        | none => pure (0, p)
        | some p =>
            match p.idle.getLast? with
            | none => pure (0, p)
            | some i => do
                let p := { p with
                  idle := p.idle.dropLast, available := lowered p.available 1
                  counters := { p.counters with scaleDowns := p.counters.scaleDowns + 1 } }
                let (count, p) ← shrink n (← p.discard i)
                pure (count + 1, p)

/-- What the scaler sees. -/
def snapshot (p : Pool) (now : Nat) : PoolSnapshot × Pool :=
  let (rate, recent) := p.recent.count now
  (⟨p.inUse, p.available, p.config.minSize, p.config.maxSize, Float.ofNat rate⟩, { p with recent })

/-- The pool as what a scaler watches and changes.  A closed pool counts as gone. -/
def scaleTarget (now : Nat) : ScaleTarget (Pool × World) where
  snapshot := fun (p, w) =>
    if p.closed then (none, p, w)
    else
      let (s, p) := p.snapshot now
      (some s, p, w)
  grow := fun n (p, w) =>
    let (count, p) := p.grow n
    (count, p, w)
  shrink := fun n (p, w) =>
    let ((count, p), w) := (p.shrink n).run w
    (count, p, w)

end Pool
end ScriptPool
