import ScriptPool.Duration
import ScriptPool.Text.Quoted

/-!
# Pool configuration

Every setting has a default, so the empty configuration is a valid one.  Settings that a pool cannot
work with (a maximal size of zero, an empty interval, …) are replaced by `PoolConfig.normalized`,
and what is left to object to is found by `PoolConfig.validate`; both are in
`ScriptPool.Config.Normal`.
-/

set_option autoImplicit false

namespace ScriptPool

/-- What a configuration can be refused for. -/
inductive ConfigError where
  | invalidDuration (text : String)
  | unknownProfile (name : String)
  | invalid (reason : String)
  deriving Repr, DecidableEq

/-- The wording of a refusal. -/
def ConfigError.message : ConfigError → String
  | .invalidDuration text => "invalid duration: " ++ Text.quote text
  | .unknownProfile name => "unknown load profile: " ++ name
  | .invalid reason => "invalid configuration: " ++ reason

/-- How much of the guest's standard library scripts may use. -/
inductive SecurityLevel where
  /-- Everything that cannot corrupt the process. -/
  | minimal
  /-- No files, and no access to the process or its environment. -/
  | standard
  /-- Computation only. -/
  | strict
  deriving Repr, DecidableEq, Inhabited

/-- The name of a level in configuration files. -/
def SecurityLevel.name : SecurityLevel → String
  | .minimal => "minimal"
  | .standard => "standard"
  | .strict => "strict"

/-- All levels, in the order in which messages list them. -/
def SecurityLevel.all : List SecurityLevel := [.minimal, .standard, .strict]

/-- What one interpreter may use. -/
structure ResourceLimits where
  security : SecurityLevel := .standard
  /-- Bytes of guest memory; `0` is no limit. -/
  memoryLimit : Nat := 64 * 1024 * 1024
  /-- Instructions in one execution; `0` is no limit. -/
  instructionLimit : Nat := 0
  /-- Instructions between two checks of the limits. -/
  hookInterval : Nat := 1000
  /-- Time for one execution. -/
  maxDuration : Option Duration := none
  /-- A script that runs once on every new interpreter. -/
  initScript : Option String := none
  deriving Inhabited

/-- The constants of the usage prediction. -/
structure ScalingTunables where
  /-- Growth of the request rate that counts as a surge. -/
  surgeRatio : Float := 1.2
  /-- What a prediction is multiplied by in a surge. -/
  surgeBoost : Float := 1.1
  highVariance : Float := 0.1
  lowVariance : Float := 0.05
  thresholdStep : Float := 0.05
  thresholdFloor : Float := 0.1
  thresholdCeiling : Float := 0.9
  /-- The fraction of the idle interpreters that one step removes. -/
  scaleDownFraction : Float := 0.2
  /-- Samples that a prediction needs. -/
  minHistory : Nat := 3
  /-- How far back requests are counted. -/
  requestWindow : Duration := .ofSecs 60
  deriving Inhabited

/-- The settings of a pool. -/
structure PoolConfig where
  minSize : Nat := 1
  maxSize : Nat := 10
  enablePredictiveScaling : Bool := false
  predictionWindowSize : Nat := 10
  predictionInterval : Duration := .ofSecs 30
  scaleUpThreshold : Float := 0.8
  scaleDownThreshold : Float := 0.2
  maxPredictedScaleUp : Nat := 5
  enableAdaptiveThresholds : Bool := false
  enablePreWarming : Bool := false
  preWarmOnInit : Nat := 0
  preWarmScript : Option String := none
  preWarmTimeout : Duration := .ofSecs 5
  enableMemoryPooling : Bool := false
  memoryPoolSize : Nat := 10
  memoryBlockSize : Nat := 1024 * 1024
  enableLoadBalancing : Bool := false
  /-- How long a borrower waits who gives no deadline. -/
  acquireTimeout : Option Duration := none
  /-- Loans after which an interpreter is replaced. -/
  maxUses : Option Nat := none
  /-- Interpreters that are idle for longer are evicted. -/
  idleTimeout : Duration := .ofSecs 600
  /-- Interpreters of lower health are evicted. -/
  healthThreshold : Float := 0.7
  cleanupInterval : Duration := .ofSecs 60
  limits : ResourceLimits := {}
  tunables : ScalingTunables := {}
  deriving Inhabited

/-- Presets for common kinds of traffic. -/
inductive LoadProfile where
  | burst | steady | periodic | memoryIntensive
  deriving Repr, DecidableEq

namespace LoadProfile

/-- The name of a preset. -/
def name : LoadProfile → String
  | .burst => "burst"
  | .steady => "steady"
  | .periodic => "periodic"
  | .memoryIntensive => "memory_intensive"

/-- The preset of a name. -/
def ofName (name : String) : Except ConfigError LoadProfile :=
  if name = "burst" then .ok .burst
  else if name = "steady" then .ok .steady
  else if name = "periodic" then .ok .periodic
  else if name = "memory_intensive" then .ok .memoryIntensive
  else .error (.unknownProfile name)

end LoadProfile

/-- Overrides what a preset is about. -/
def PoolConfig.withProfile (c : PoolConfig) : LoadProfile → PoolConfig
  | .burst =>
      { c with scaleUpThreshold := 0.6, scaleDownThreshold := 0.1, maxPredictedScaleUp := 10 }
  | .steady =>
      { c with scaleUpThreshold := 0.85, scaleDownThreshold := 0.25, maxPredictedScaleUp := 3 }
  | .periodic => { c with enableAdaptiveThresholds := true, predictionWindowSize := 20 }
  | .memoryIntensive =>
      { c with
        enableMemoryPooling := true, memoryPoolSize := 20, memoryBlockSize := 2 * 1024 * 1024 }

end ScriptPool
