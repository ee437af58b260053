import ScriptPool.Scaling.Prediction

/-!
# The band between growing and shrinking

A pool grows when the prediction is above the upper threshold and shrinks when it is below the lower
one.  When usage varies a lot the band is narrowed, so that the pool reacts sooner; when usage is
calm it is widened.  A step that would close the band is not taken.
-/

set_option autoImplicit false

namespace ScriptPool

/-- The thresholds in force. -/
structure Thresholds where
  scaleUp : Float
  scaleDown : Float
  deriving Inhabited

/-- A float moved into a range.  Without a range there is no such float: the bounds must be numbers
in order. -/
def clampWithin? (low high x : Float) : Option Float :=
  if low ≤ high then some (if x < low then low else if high < x then high else x) else none

namespace Thresholds

/-- The same thresholds, as floats compare. -/
def agree (a b : Thresholds) : Bool := a.scaleUp == b.scaleUp && a.scaleDown == b.scaleDown

/-- The thresholds a step further: `up` and `down` are kept within the bounds, and the step is taken
only if it leaves the band open. -/
def stepTo? (t : Thresholds) (tunables : ScalingTunables) (up down : Float) : Option Thresholds := do
  let scaleUp ← clampWithin? tunables.thresholdFloor tunables.thresholdCeiling up
  let scaleDown ← clampWithin? tunables.thresholdFloor tunables.thresholdCeiling down
  if scaleUp ≤ scaleDown then t else some { scaleUp, scaleDown }

/-- The thresholds after a look at the window.  Nothing changes until the window is full.  There is
no answer when a step is due and its bounds are not in order. -/
def adjusted? (t : Thresholds) (w : UsageWindow) (tunables : ScalingTunables) : Option Thresholds :=
  if !w.isFull then some t
  else
    let v := w.usageVariance
    let step := tunables.thresholdStep
    if tunables.highVariance < v then
      t.stepTo? tunables (t.scaleUp - step) (t.scaleDown + step)
    else if v < tunables.lowVariance then
      t.stepTo? tunables (t.scaleUp + step) (t.scaleDown - step)
    else some t

end Thresholds
end ScriptPool
