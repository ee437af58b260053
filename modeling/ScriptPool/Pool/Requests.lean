import ScriptPool.Duration

/-!
# Counting recent requests

The moments of past requests, oldest first.  Every look at them drops those that have left the
window; one that is exactly as old as the window is long still counts.
-/

set_option autoImplicit false

namespace ScriptPool

/-- The requests of a trailing window of time. -/
structure RequestWindow where
  window : Duration
  /-- The moments of the requests, in nanoseconds. -/
  times : List Nat := []
  deriving Inhabited

namespace RequestWindow

/-- Drops requests that are too long ago. -/
def prune (r : RequestWindow) (now : Nat) : RequestWindow :=
  { r with times := r.times.dropWhile fun t => r.window.nanos < now - t }

/-- Notes a request. -/
def record (r : RequestWindow) (now : Nat) : RequestWindow :=
  let r := r.prune now
  { r with times := r.times ++ [now] }

/-- How many requests there were within the window. -/
def count (r : RequestWindow) (now : Nat) : Nat × RequestWindow :=
  let r := r.prune now
  (r.times.length, r)

end RequestWindow
end ScriptPool
