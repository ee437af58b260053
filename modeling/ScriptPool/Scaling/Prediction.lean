import ScriptPool.Config.Basic
import ScriptPool.Scaling.Window

/-!
# Predicting usage

The usage one step ahead is read off the line that fits the recent usages best in the sense of least
squares, with the samples at `0, 1, …, n - 1` and the prediction at `n`.  If requests came in
clearly faster at the last sample than at the one before, the prediction is raised.

The computation is written for any `UsageScale`, a type with the operations that it needs.  Floats
are what a scaler runs with; exact numbers are what the meaning of the formulas is stated for.
-/

set_option autoImplicit false

namespace ScriptPool

/-- The numbers that usage is measured in. -/
class UsageScale (α : Type) extends Add α, Sub α, Mul α, Div α where
  ofCount : Nat → α
  less : α → α → Bool
  /-- Is this the result of an operation that has none? -/
  isUndefined : α → Bool

/-- Usage in floats. -/
instance : UsageScale Float where
  ofCount := Float.ofNat
  less a b := a < b
  isUndefined := Float.isNaN

/-- The sums that a line is fitted from. -/
structure LineSums (α : Type) where
  x : α
  y : α
  xy : α
  xx : α

section Line

variable {α : Type} [UsageScale α]

open UsageScale

/-- The sums over no points. -/
def LineSums.zero : LineSums α := ⟨ofCount 0, ofCount 0, ofCount 0, ofCount 0⟩

/-- Adds a point. -/
def LineSums.add (s : LineSums α) (x y : α) : LineSums α :=
  ⟨s.x + x, s.y + y, s.xy + x * y, s.xx + x * x⟩

/-- The sums over the points at `i, i + 1, …`. -/
def LineSums.addFrom (s : LineSums α) (i : Nat) : List α → LineSums α
  | [] => s
  | y :: rest => (s.add (ofCount i) y).addFrom (i + 1) rest

/-- The slope and the intercept of the best line through the points at `0, 1, …`. -/
def fittedLine (ys : List α) : α × α :=
  let n := ofCount ys.length
  let s := LineSums.zero.addFrom 0 ys
  let slope := (n * s.xy - s.x * s.y) / (n * s.xx - s.x * s.x)
  let intercept := (s.y - slope * s.x) / n
  (slope, intercept)

/-- The best line at the first place after the points. -/
def extrapolated (ys : List α) : α :=
  let (slope, intercept) := fittedLine ys
  slope * ofCount ys.length + intercept

/-- A half: the prediction where there is nothing to go by. -/
def neutralUsage : α := ofCount 1 / ofCount 2

/-- A number moved into the unit interval. -/
def withinUnit (x : α) : α :=
  if less x (ofCount 0) then ofCount 0 else if less (ofCount 1) x then ofCount 1 else x

/-- Did the last of several rates exceed the one before by more than a factor? -/
def isSurge (ratio : α) (rates : List α) : Bool :=
  match rates.reverse with
  | latest :: previous :: _ => less (previous * ratio) latest
  | _ => false

/-- The usage to expect after the given usages and request rates. -/
def expectedUsage (minHistory : Nat) (surgeRatio surgeBoost : α) (usages rates : List α) : α :=
  if usages.length < max minHistory 2 then neutralUsage
  else
    let onLine := extrapolated usages
    let boosted := if isSurge surgeRatio rates then onLine * surgeBoost else onLine
    if isUndefined boosted then neutralUsage else withinUnit boosted

/-- The mean of some numbers. -/
def mean (xs : List α) : α := xs.foldl (· + ·) (ofCount 0) / ofCount xs.length

/-- The mean square distance from the mean; `0` for no numbers. -/
def variance (xs : List α) : α :=
  if xs.isEmpty then ofCount 0
  else
    let m := mean xs
    mean (xs.map fun x => (x - m) * (x - m))

end Line

namespace UsageWindow

/-- The usage to expect at the next sample. -/
def prediction (w : UsageWindow) (t : ScalingTunables) : Float :=
  expectedUsage t.minHistory t.surgeRatio t.surgeBoost w.usages (w.samples.map (·.requestRate))

/-- How much the usages vary. -/
def usageVariance (w : UsageWindow) : Float := variance w.usages

end UsageWindow
end ScriptPool
