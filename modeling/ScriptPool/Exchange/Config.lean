import ScriptPool.Config.Toml
import ScriptPool.Exchange.Number

/-!
# Settings as documents

Settings are given as JSON under the names that they have in configuration files, in any selection;
what is not mentioned keeps its value.  A dump mentions all of them, with spans of time in
nanoseconds and absent settings as `null`.
-/

set_option autoImplicit false

namespace ScriptPool
namespace Exchange

/-! ## Reading -/

mutual

/-- A setting, as an item of a configuration file.  `null` stands for an absent one. -/
def setting? : Json → Option Toml.Item
  | .null => none
  | .bool b => some (.boolean b)
  | .integer n => some (.integer n)
  | .float x => some (.float x)
  | .string s => some (.string s)
  | .array _ => none
  | .object members =>
      match readNumber? (.object members) with
      | some x => some (.float x)
      | none => some (.table (settings members))

/-- Settings in turn. -/
def settings : List (String × Json) → Toml.Entries
  | [] => []
  | (name, j) :: rest =>
      match setting? j with
      | some item => (name, item) :: settings rest
      | none => settings rest

end

/-- The settings that a document gives, over the defaults. -/
def readConfig (j : Json) : Except Toml.DecodeError PoolConfig :=
  PoolConfig.overriddenBy {} (settings j.members)

/-- The limits that a document gives, over the defaults. -/
def readLimits (j : Json) : Except Toml.DecodeError ResourceLimits :=
  Toml.decodeEntries Toml.limitSettings (settings j.members) {}

/-! ## Dumping -/

/-- A span of time. -/
def span (d : Duration) : Json := natural d.nanos

/-- The name of a security level. -/
def levelName : SecurityLevel → String
  | .minimal => "Minimal"
  | .standard => "Standard"
  | .strict => "Strict"

/-- The name of a preset. -/
def profileName : LoadProfile → String
  | .burst => "Burst"
  | .steady => "Steady"
  | .periodic => "Periodic"
  | .memoryIntensive => "MemoryIntensive"

/-- Resource limits. -/
def limits (l : ResourceLimits) : Json :=
  .object [("security", .string (levelName l.security)), ("memory_limit", natural l.memoryLimit),
    ("instruction_limit", natural l.instructionLimit), ("hook_interval", natural l.hookInterval),
    ("max_duration", optional span l.maxDuration),
    ("init_script", optional .string l.initScript)]

/-- Constants of the prediction. -/
def tunables (t : ScalingTunables) : Json :=
  .object [("surge_ratio", number t.surgeRatio), ("surge_boost", number t.surgeBoost),
    ("high_variance", number t.highVariance), ("low_variance", number t.lowVariance),
    ("threshold_step", number t.thresholdStep), ("threshold_floor", number t.thresholdFloor),
    ("threshold_ceiling", number t.thresholdCeiling),
    ("scale_down_fraction", number t.scaleDownFraction), ("min_history", natural t.minHistory),
    ("request_window", span t.requestWindow)]

/-- All settings of a pool. -/
def config (c : PoolConfig) : Json :=
  .object [("min_size", natural c.minSize), ("max_size", natural c.maxSize),
    ("enable_predictive_scaling", .bool c.enablePredictiveScaling),
    ("prediction_window_size", natural c.predictionWindowSize),
    ("prediction_interval", span c.predictionInterval),
    ("scale_up_threshold", number c.scaleUpThreshold),
    ("scale_down_threshold", number c.scaleDownThreshold),
    ("max_predicted_scale_up", natural c.maxPredictedScaleUp),
    ("enable_adaptive_thresholds", .bool c.enableAdaptiveThresholds),
    ("enable_pre_warming", .bool c.enablePreWarming),
    ("pre_warm_on_init", natural c.preWarmOnInit),
    ("pre_warm_script", optional .string c.preWarmScript),
    ("pre_warm_timeout", span c.preWarmTimeout),
    ("enable_memory_pooling", .bool c.enableMemoryPooling),
    ("memory_pool_size", natural c.memoryPoolSize),
    ("memory_block_size", natural c.memoryBlockSize),
    ("enable_load_balancing", .bool c.enableLoadBalancing),
    ("acquire_timeout", optional span c.acquireTimeout), ("max_uses", optional natural c.maxUses),
    ("idle_timeout", span c.idleTimeout), ("health_threshold", number c.healthThreshold),
    ("cleanup_interval", span c.cleanupInterval), ("limits", limits c.limits),
    ("tunables", tunables c.tunables)]

end Exchange
end ScriptPool
