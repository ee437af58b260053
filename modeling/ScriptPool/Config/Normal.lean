import ScriptPool.Config.Basic

/-!
# Normalizing and validating a configuration

`PoolConfig.normalized` replaces settings that a pool cannot work with by their defaults and keeps
all others.  `PoolConfig.validate` reports the first of the remaining contradictions.

The tests on floats are written so that what is not a number passes the replacement (nothing
compares with it) and is caught by the range checks afterwards.
-/

set_option autoImplicit false

namespace ScriptPool

/-- A number, unless it is zero. -/
def orIfZero (default n : Nat) : Nat := if n = 0 then default else n

/-- A span of time, unless it is empty. -/
def Duration.orIfZero (default d : Duration) : Duration := if d.isZero then default else d

/-- A float, unless it is at most zero. -/
def orUnlessPositive (default x : Float) : Float := if x ≤ 0.0 then default else x

namespace PoolConfig

/-- The defaults. -/
def standard : PoolConfig := {}

/-- The configuration with unusable settings replaced. -/
def normalized (c : PoolConfig) : PoolConfig :=
  let maxSize := orIfZero standard.maxSize c.maxSize
  { c with
    maxSize := maxSize
    minSize := min c.minSize maxSize
    predictionWindowSize := orIfZero standard.predictionWindowSize c.predictionWindowSize
    predictionInterval := Duration.orIfZero standard.predictionInterval c.predictionInterval
    scaleUpThreshold := orUnlessPositive standard.scaleUpThreshold c.scaleUpThreshold
    scaleDownThreshold := orUnlessPositive standard.scaleDownThreshold c.scaleDownThreshold
    maxPredictedScaleUp := orIfZero standard.maxPredictedScaleUp c.maxPredictedScaleUp
    preWarmTimeout := Duration.orIfZero standard.preWarmTimeout c.preWarmTimeout
    memoryBlockSize := orIfZero standard.memoryBlockSize c.memoryBlockSize
    memoryPoolSize := orIfZero standard.memoryPoolSize c.memoryPoolSize
    idleTimeout := Duration.orIfZero standard.idleTimeout c.idleTimeout
    healthThreshold := orUnlessPositive standard.healthThreshold c.healthThreshold
    cleanupInterval := Duration.orIfZero standard.cleanupInterval c.cleanupInterval
    limits :=
      { c.limits with hookInterval := orIfZero standard.limits.hookInterval c.limits.hookInterval }
    preWarmOnInit := min c.preWarmOnInit maxSize }

/-- Does a float lie between zero and one? -/
def isFraction (x : Float) : Bool := 0.0 ≤ x && x ≤ 1.0

/-- The objection to a threshold outside the unit interval. -/
def checkFraction (name : String) (x : Float) : Except ConfigError Unit :=
  if isFraction x then .ok ()
  else .error (.invalid
    (name ++ " must be within [0, 1], got " ++ Decimal.Layout.plain.write x))

/-- The first contradiction in a configuration, if there is one. -/
def validate (c : PoolConfig) : Except ConfigError Unit := do
  if c.maxSize = 0 then
    .error (.invalid "max_size must be at least 1")
  if c.maxSize < c.minSize then
    .error (.invalid
      ("min_size " ++ toString c.minSize ++ " exceeds max_size " ++ toString c.maxSize))
  checkFraction "scale_up_threshold" c.scaleUpThreshold
  checkFraction "scale_down_threshold" c.scaleDownThreshold
  checkFraction "health_threshold" c.healthThreshold
  if c.scaleUpThreshold ≤ c.scaleDownThreshold then
    .error (.invalid
      ("scale_down_threshold " ++ Decimal.Layout.plain.write c.scaleDownThreshold
        ++ " must be below scale_up_threshold " ++ Decimal.Layout.plain.write c.scaleUpThreshold))
  if c.tunables.thresholdCeiling ≤ c.tunables.thresholdFloor then
    .error (.invalid "tunables.threshold_floor must be below threshold_ceiling")
  if !isFraction c.tunables.scaleDownFraction then
    .error (.invalid "tunables.scale_down_fraction must be within [0, 1]")

end PoolConfig
end ScriptPool
