/-!
# The usage of a pool over time

A sample says how many interpreters were out and how many were idle when it was taken.  A window
keeps the latest samples, at most `capacity` of them and oldest first.
-/

set_option autoImplicit false

namespace ScriptPool

/-- One observation of a pool. -/
structure UsageSample where
  inUse : Nat
  available : Nat
  /-- Requests in the trailing request window. -/
  requestRate : Float
  deriving Inhabited

namespace UsageSample

/-- How many interpreters there are. -/
def size (s : UsageSample) : Nat := s.inUse + s.available

/-- The fraction of the interpreters that are out; `0` for an empty pool. -/
def usage (s : UsageSample) : Float :=
  if s.size = 0 then 0.0 else Float.ofNat s.inUse / Float.ofNat s.size

end UsageSample

/-- The latest samples. -/
structure UsageWindow where
  capacity : Nat
  samples : List UsageSample := []
  deriving Inhabited

namespace UsageWindow

/-- An empty window; it has room for at least one sample. -/
def ofCapacity (capacity : Nat) : UsageWindow := { capacity := max capacity 1 }

def length (w : UsageWindow) : Nat := w.samples.length

def isEmpty (w : UsageWindow) : Bool := w.samples.isEmpty

def isFull (w : UsageWindow) : Bool := w.length == w.capacity

/-- Adds a sample; a full window loses its oldest one. -/
def push (w : UsageWindow) (s : UsageSample) : UsageWindow :=
  { w with samples := (if w.isFull then w.samples.drop 1 else w.samples) ++ [s] }

def oldest? (w : UsageWindow) : Option UsageSample := w.samples.head?

def latest? (w : UsageWindow) : Option UsageSample := w.samples.getLast?

/-- The usages, oldest first. -/
def usages (w : UsageWindow) : List Float := w.samples.map UsageSample.usage

end UsageWindow
end ScriptPool
