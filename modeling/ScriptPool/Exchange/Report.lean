import ScriptPool.Exchange.Config
import ScriptPool.Pool.Basic
import ScriptPool.Scaling.Scaler

/-!
# Reports

What pools, scalers and their parts tell about themselves, as documents.  A failure is reported by
the name of its cause and its wording.
-/

set_option autoImplicit false

namespace ScriptPool
namespace Exchange

/-! ## Failures -/

/-- A failure. -/
def failure (cause message : String) : Json :=
  .object [("error", .string cause), ("message", .string message)]

def convertFailure (e : ConvertError) : Json :=
  failure (match e with
    | .tooDeep _ => "MaxDepthExceeded"
    | .circular => "CircularReference"
    | .unsupported _ => "UnsupportedType"
    | .guest _ => "Guest"
    | .duplicateTag _ => "DuplicateCustomType") e.message

def callFailure (e : CallError) : Json :=
  failure (match e with
    | .conversion _ => "Conversion"
    | .failed _ => "Failed") e.message

def configFailure (e : ConfigError) : Json :=
  failure (match e with
    | .invalidDuration _ => "InvalidDuration"
    | .unknownProfile _ => "UnknownProfile"
    | .invalid _ => "Invalid") e.message

def interpreterFailure (e : InterpreterError) : Json :=
  failure (match e with
    | .creation _ => "Create"
    | .script _ => "Script"
    | .reset _ => "Reset") e.message

def poolFailure (e : PoolError) : Json :=
  failure (match e with
    | .exhausted _ => "Exhausted"
    | .canceled => "Canceled"
    | .closed => "Closed"
    | .creationFailed _ => "CreationFailed"
    | .shutdownTimeout _ => "ShutdownTimeout"
    | .config _ => "Config") e.message

def executionFailure (e : ExecutionError) : Json :=
  failure (match e with
    | .pool _ => "Pool"
    | .interpreter _ => "Interpreter"
    | .conversion _ => "Convert"
    | .task _ => "Join") e.message

/-! ## Scaling -/

/-- A sample of usage. -/
def sample (s : UsageSample) : Json :=
  .object [("in_use", natural s.inUse), ("available", natural s.available),
    ("rate", number s.requestRate), ("usage", number s.usage)]

/-- A window of usage, with the thresholds in force. -/
def window (tunables : ScalingTunables) (w : UsageWindow) (t : Thresholds) : Json :=
  .object [("len", natural w.length), ("empty", .bool w.isEmpty), ("full", .bool w.isFull),
    ("oldest", optional sample w.oldest?), ("latest", optional sample w.latest?),
    ("predict", number (w.prediction tunables)), ("variance", number w.usageVariance),
    ("up", number t.scaleUp), ("down", number t.scaleDown)]

/-- The counters of a scaler. -/
def scalerStats (s : ScalerStats) : Json :=
  .object [("ticks", natural s.ticks), ("scale_ups", natural s.scaleUps),
    ("scale_downs", natural s.scaleDowns), ("requested", natural s.requested),
    ("removed", natural s.removed), ("prediction", number s.lastPrediction),
    ("up", number s.thresholds.scaleUp), ("down", number s.thresholds.scaleDown)]

/-- A snapshot of a pool, read from a document. -/
def readSnapshot (j : Json) : PoolSnapshot :=
  let count (name : String) : Nat := ((j.get? name).bind readNatural?).getD 0
  ⟨count "in_use", count "available", count "min", count "max",
    (readNumber? (j.get "rate")).getD 0.0⟩

/-- A decision. -/
def decision : ScaleDecision → Json
  | .up n => .object [("up", natural n)]
  | .down n => .object [("down", natural n)]
  | .keep => .string "none"

/-! ## Pools -/

/-- The counters of a free list of memory. -/
def memoryStats (m : MemoryBlocks) : Json :=
  .object [("enabled", .bool m.enabled), ("block_size", natural m.blockSize),
    ("pooled_blocks", natural m.free.length), ("hits", natural m.hits),
    ("misses", natural m.misses)]

/-- The gauges and counters of a pool. -/
def metrics (p : Pool) : List (String × Json) :=
  let c := p.counters
  [("available", natural p.available), ("in_use", natural p.inUse), ("total", natural p.total),
    ("min_size", natural p.config.minSize), ("max_size", natural p.config.maxSize),
    ("total_created", natural c.created), ("total_destroyed", natural c.destroyed),
    ("total_recycled", natural c.recycled), ("creation_failures", natural c.creationFailures),
    ("wait_count", natural c.waits), ("total_requests", natural c.requests),
    ("prewarmed", natural c.prewarmed), ("predicted_scale_ups", natural c.scaleUps),
    ("predicted_scale_downs", natural c.scaleDowns), ("total_cleaned_up", natural c.evicted)]

/-- A span of time in seconds and nanoseconds. -/
def clockSpan (d : Duration) : Json :=
  .object [("secs", natural (d.nanos / 1000000000)), ("nanos", natural (d.nanos % 1000000000))]

/-- The load of an interpreter. -/
def load (info : LoadInfo) : Json :=
  .object [("execution_count", natural info.count), ("total_duration", clockSpan info.total),
    ("avg_duration", clockSpan info.average)]

end Exchange
end ScriptPool
