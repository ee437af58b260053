import ScriptPool.Command.Arguments
import ScriptPool.Config.Toml
import ScriptPool.Json.Reader
import ScriptPool.Service.Client
import ScriptPool.Value.Json

/-!
# Running a script from the command line

A configuration is loaded, a pool is opened, the script is executed as often as it was asked for,
and a report is given of the last result and of the pool.

Files are read before, so that what happens is a function of their texts.
-/

set_option autoImplicit false

namespace ScriptPool

/-- Why a command could not do what it was asked for. -/
inductive CommandError where
  | configFile (path : String)
  | config (cause : ConfigError)
  | unwritable (cause : Toml.EncodeError)
  | scriptFile (path : String)
  /-- The values for the script are not JSON. -/
  | argument
  | pool (cause : PoolError)
  | failedExecutions (count : Nat)
  deriving Repr, DecidableEq

/-- The wording of a failure. -/
def CommandError.message : CommandError → String
  | .configFile path => "Failed to load config from " ++ path
  | .config cause => cause.message
  | .unwritable cause => cause.message
  | .scriptFile path => "Failed to read " ++ path
  | .argument => "--arg is not valid JSON"
  | .pool cause => cause.message
  | .failedExecutions count => toString count ++ " execution(s) failed"

/-- The texts of files, by path. -/
abbrev Files := String → Option String

/-- The files that a source mentions. -/
def ConfigSource.paths (source : ConfigSource) : List String := source.file.toList

/-- The files that a command line mentions. -/
def Invocation.paths : Invocation → List String
  | .run r => r.script :: r.source.paths
  | .config source => source.paths
  | _ => []

/-- The configuration of a file. -/
def ConfigSource.load (source : ConfigSource) (files : Files) : Except CommandError PoolConfig :=
  match source.file with
  | none => .ok {}
  | some path =>
      match (files path).map PoolConfig.ofText with
      | some (.ok c) => .ok c
      | _ => .error (.configFile path)

/-- The configuration in force: that of the file, or else the usual one, with the preset over it and
unusable settings replaced. -/
def ConfigSource.resolve (source : ConfigSource) (files : Files) :
    Except CommandError PoolConfig := do
  let c ← source.load files
  let c ← match source.profile with
    | none => pure c
    | some name => (LoadProfile.ofName name).mapError .config |>.map c.withProfile
  let c := c.normalized
  c.validate.mapError .config
  pure c

/-- What came of running a script. -/
structure RunReport where
  /-- The last result, if there was one. -/
  result : Option Value
  executions : Nat
  failures : Nat
  pool : Pool
  scaler : Option ScalerStats

namespace RunReport

/-- A float, or `null` where JSON has no form for it. -/
def finite (x : Float) : Json := if x.isFinite then .float x else .null

/-- A natural number. -/
def whole (n : Nat) : Json := .integer n

/-- A result: as JSON if it is data, and otherwise as the text of the value. -/
def resultJson (v : Value) : Json :=
  match v.toJson with
  | .ok j => j
  | .error _ => .string v.text

/-- The counters of the scaler. -/
def scalerJson (s : ScalerStats) : Json :=
  .object [("instances_removed", whole s.removed), ("instances_requested", whole s.requested),
    ("last_prediction", finite s.lastPrediction),
    ("scale_down_threshold", finite s.thresholds.scaleDown), ("scale_downs", whole s.scaleDowns),
    ("scale_up_threshold", finite s.thresholds.scaleUp), ("scale_ups", whole s.scaleUps),
    ("ticks", whole s.ticks)]

/-- The gauges and counters of the pool. -/
def metricsJson (r : RunReport) : Json :=
  let p := r.pool
  let c := p.counters
  .object ([("available", whole p.available), ("creation_failures", whole c.creationFailures),
    ("in_use", whole p.inUse), ("max_size", whole p.config.maxSize),
    ("min_size", whole p.config.minSize), ("predicted_scale_downs", whole c.scaleDowns),
    ("predicted_scale_ups", whole c.scaleUps), ("prewarmed", whole c.prewarmed)]
    ++ (r.scaler.map fun s => ("scaler", scalerJson s)).toList
    ++ [("total", whole p.total), ("total_cleaned_up", whole c.evicted),
      ("total_created", whole c.created), ("total_destroyed", whole c.destroyed),
      ("total_recycled", whole c.recycled), ("total_requests", whole c.requests),
      ("wait_count", whole c.waits)])

/-- The counters of the scratch memory. -/
def memoryJson (m : MemoryBlocks) : Json :=
  .object [("block_size", whole m.blockSize), ("enabled", .bool m.enabled), ("hits", whole m.hits),
    ("misses", whole m.misses), ("pooled_blocks", whole m.free.length)]

/-- The report as a document, with the time that the executions took, in milliseconds. -/
def toJson (r : RunReport) (elapsed : Nat) : Json :=
  .object [("elapsed_ms", whole elapsed), ("executions", whole r.executions),
    ("failures", whole r.failures), ("memory", memoryJson r.pool.memory),
    ("metrics", r.metricsJson), ("result", (r.result.map resultJson).getD .null)]

/-- How the command ends: it fails if an execution did. -/
def verdict (r : RunReport) : Except CommandError Unit :=
  if r.failures = 0 then .ok () else .error (.failedExecutions r.failures)

end RunReport

namespace RunRequest

/-- The values that are bound to globals: the members of an object under their names, and anything
else under `arg`. -/
def globals (r : RunRequest) : Except CommandError (List (String × Value)) :=
  match r.argument with
  | none => .ok []
  | some text =>
      match (Json.parse? text).map Value.ofJson with
      | none => .error .argument
      | some (.object fields) => .ok fields
      | some v => .ok [("arg", v)]

/-- How often the script is executed.  Every worker executes it at least once. -/
def executions (r : RunRequest) : Nat := max r.concurrency 1 * max r.iterations 1

/-- Executes a script so many times; gives the last result and the number of failures. -/
def repeated (script : Script) (globals : List (String × Value)) :
    Nat → Option Value → Nat → Service.Move (Option Value × Nat)
  | 0, last, failures => pure (last, failures)
  | n + 1, last, failures => do
      match ← Service.execute {} script globals with
      | .ok v => repeated script globals n (some v) failures
      | .error _ => repeated script globals n last (failures + 1)

/-- Executes the script as often as it is to be, once the interpreters are warm. -/
def work (r : RunRequest) (script : Script) (globals : List (String × Value)) :
    Service.Move RunReport := do
  Service.awaitWarming
  let (result, failures) ← repeated script globals r.executions none 0
  let s ← get
  pure {
    result
    executions := r.executions
    failures
    pool := s.pool
    scaler := s.scaler.map (·.stats) }

/-- Runs a script, in a language. -/
def run (r : RunRequest) (language : Language) (files : Files) : Except CommandError RunReport := do
  let config ← r.source.resolve files
  let text ← match files r.script with
    | some text => pure text
    | none => .error (.scriptFile r.script)
  let globals ← r.globals
  let opened : Transition (Except PoolError RunReport) := do
    match ← Service.ofConfig config none with
    | .error e => pure (.error e)
    | .ok s => return .ok (← (r.work (language.read text) globals).run s).1
  (opened.run { language }).1.mapError .pool

end RunRequest

/-- The configuration in force, as a text. -/
def ConfigSource.describe (source : ConfigSource) (files : Files) : Except CommandError String := do
  let c ← source.resolve files
  c.toText.mapError .unwritable

end ScriptPool
