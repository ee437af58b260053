import ScriptPool.Scaling.Thresholds

/-!
# Scaling decisions

A scaler looks at a pool once every interval.  It records a sample, predicts the usage at the next
one, and decides whether interpreters should be added or removed; whoever owns the pool carries that
out, which here is a `ScaleTarget`.

A pool without interpreters is not looked at: nothing is recorded and nothing decided.
-/

set_option autoImplicit false

namespace ScriptPool

/-- What a scaler sees of a pool. -/
structure PoolSnapshot where
  inUse : Nat
  available : Nat
  minSize : Nat
  maxSize : Nat
  requestRate : Float
  deriving Inhabited

/-- The sample that a snapshot gives. -/
def PoolSnapshot.sample (s : PoolSnapshot) : UsageSample := ⟨s.inUse, s.available, s.requestRate⟩

/-- How many interpreters a snapshot shows. -/
def PoolSnapshot.size (s : PoolSnapshot) : Nat := s.inUse + s.available

/-- What to do about the size of a pool. -/
inductive ScaleDecision where
  /-- Add so many interpreters. -/
  | up (count : Nat)
  /-- Remove so many idle interpreters. -/
  | down (count : Nat)
  | keep
  deriving Repr, DecidableEq

/-- What a scaler has done so far. -/
structure ScalerStats where
  ticks : Nat := 0
  scaleUps : Nat := 0
  scaleDowns : Nat := 0
  /-- Interpreters whose creation was started. -/
  requested : Nat := 0
  removed : Nat := 0
  lastPrediction : Float := 0.5
  thresholds : Thresholds
  deriving Inhabited

/-- The settings of a scaler. -/
structure ScalerSettings where
  interval : Duration
  windowSize : Nat
  thresholds : Thresholds
  maxPredictedScaleUp : Nat
  adaptive : Bool
  tunables : ScalingTunables
  deriving Inhabited

/-- The settings of the scaler that a pool configuration asks for. -/
def PoolConfig.scalerSettings (c : PoolConfig) : ScalerSettings where
  interval := c.predictionInterval
  windowSize := c.predictionWindowSize
  thresholds := ⟨c.scaleUpThreshold, c.scaleDownThreshold⟩
  maxPredictedScaleUp := c.maxPredictedScaleUp
  adaptive := c.enableAdaptiveThresholds
  tunables := c.tunables

/-- A scaler between two looks at its pool. -/
structure Scaler where
  settings : ScalerSettings
  window : UsageWindow
  thresholds : Thresholds
  stats : ScalerStats
  deriving Inhabited

/-- Sizes that can be computed with. -/
def sizeBound : Nat := 2 ^ 64 - 1

namespace Scaler

/-- A scaler that has not looked yet. -/
def new (settings : ScalerSettings) : Scaler where
  settings := settings
  window := .ofCapacity settings.windowSize
  thresholds := settings.thresholds
  stats := { thresholds := settings.thresholds }

/-- How many interpreters to add when usage is expected above the upper threshold: in proportion to
how far above, but at least one, and no more than allowed at once and than the pool has room for. -/
def growth (k : Scaler) (s : PoolSnapshot) (prediction : Float) : Nat :=
  let factor := 1.0 + (prediction - k.thresholds.scaleUp)
  let target := Decimal.ceilNat sizeBound (Float.ofNat s.size * factor)
  min (min (max (target - s.size) 1) k.settings.maxPredictedScaleUp) (s.maxSize - s.size)

/-- How many idle interpreters may go without making the pool too small. -/
def removable (s : PoolSnapshot) : Nat := min s.available (s.size - s.minSize)

/-- How many interpreters to remove: a fraction of the idle ones, but at least one. -/
def reduction (k : Scaler) (s : PoolSnapshot) : Nat :=
  let fraction := k.settings.tunables.scaleDownFraction
  let part := Decimal.floorNat sizeBound (Float.ofNat s.available * fraction)
  min (max part 1) (removable s)

/-- What to do, given the usage now and the usage to expect. -/
def decide (k : Scaler) (s : PoolSnapshot) (usage prediction : Float) : ScaleDecision :=
  if k.thresholds.scaleUp < prediction then
    let count := k.growth s prediction
    if 0 < count then .up count else .keep
  else if prediction < k.thresholds.scaleDown && usage < k.thresholds.scaleDown then
    if removable s = 0 then .keep else .down (k.reduction s)
  else .keep

/-- Takes over thresholds, also into the statistics. -/
def adopt (k : Scaler) (t : Thresholds) : Scaler :=
  if t.agree k.thresholds then k
  else { k with thresholds := t, stats := { k.stats with thresholds := t } }

/-- Records a sample and decides.  There is no decision if the scaler cannot go on, because the
bounds of the thresholds are not in order. -/
def tick (k : Scaler) (s : PoolSnapshot) : Option ScaleDecision × Scaler :=
  if s.size = 0 then (some .keep, k)
  else
    let window := k.window.push s.sample
    let prediction := window.prediction k.settings.tunables
    let stats := { k.stats with ticks := k.stats.ticks + 1, lastPrediction := prediction }
    let decision := k.decide s s.sample.usage prediction
    let k := { k with window, stats }
    if !k.settings.adaptive then (some decision, k)
    else
      match k.thresholds.adjusted? window k.settings.tunables with
      | none => (none, k)
      | some t => (some decision, k.adopt t)

/-- Notes that interpreters were asked for. -/
def noteScaleUp (k : Scaler) (scheduled : Nat) : Scaler :=
  { k with stats := { k.stats with
      scaleUps := k.stats.scaleUps + 1, requested := k.stats.requested + scheduled } }

/-- Notes that interpreters were removed. -/
def noteScaleDown (k : Scaler) (removed : Nat) : Scaler :=
  { k with stats := { k.stats with
      scaleDowns := k.stats.scaleDowns + 1, removed := k.stats.removed + removed } }

end Scaler

/-- Something whose size a scaler can watch and change. -/
structure ScaleTarget (σ : Type) where
  /-- What there is to see now; nothing once the target is gone. -/
  snapshot : σ → Option PoolSnapshot × σ
  /-- Starts creating up to so many interpreters; says how many. -/
  grow : Nat → σ → Nat × σ
  /-- Removes up to so many idle interpreters; says how many. -/
  shrink : Nat → σ → Nat × σ

/-- How a look at a target ended. -/
inductive Evaluation where
  | decided (d : ScaleDecision)
  /-- The target no longer exists. -/
  | gone
  /-- The scaler cannot go on. -/
  | failed
  deriving Repr, DecidableEq

namespace Scaler

variable {σ : Type}

/-- Carries out a decision. -/
def apply (target : ScaleTarget σ) (k : Scaler) (d : ScaleDecision) (s : σ) : Scaler × σ :=
  match d with
  | .up count =>
      let (scheduled, s) := target.grow count s
      (k.noteScaleUp scheduled, s)
  | .down count =>
      let (removed, s) := target.shrink count s
      (k.noteScaleDown removed, s)
  | .keep => (k, s)

/-- Looks at a target, decides, and has the decision carried out. -/
def evaluate (target : ScaleTarget σ) (k : Scaler) (s : σ) : Evaluation × Scaler × σ :=
  match target.snapshot s with
  | (none, s) => (.gone, k, s)
  | (some snapshot, s) =>
      match k.tick snapshot with
      | (none, k) => (.failed, k, s)
      | (some d, k) =>
          let (k, s) := apply target k d s
          (.decided d, k, s)

/-- Looks at a target so many times, or until it is gone or the scaler cannot go on. -/
def evaluateTimes (target : ScaleTarget σ) : Nat → Scaler → σ → Option Evaluation × Scaler × σ
  | 0, k, s => (none, k, s)
  | n + 1, k, s =>
      match evaluate target k s with
      | (.decided _, k, s) => evaluateTimes target n k s
      | (ended, k, s) => (some ended, k, s)

/-- Looks at a target every interval for a span of time. -/
def runFor (target : ScaleTarget σ) (span : Duration) (k : Scaler) (s : σ) :
    Option Evaluation × Scaler × σ :=
  evaluateTimes target (span.nanos / k.settings.interval.nanos) k s

end Scaler
end ScriptPool
