import ScriptPool.Decimal.Binary

/-!
# The shortest decimal that reads back

`shortest m q` chooses, for the positive number `m · 2^q`, the decimal with the fewest digits that
lies in the interval of reals that round to it, and among those the nearest.

The interval reaches half way to the neighbours on both sides; its ends belong to it exactly when
`m` is even, because a tie rounds to the even mantissa.  Below a power of two the gap is half as
wide.  All four corners are multiples of a quarter of the last place, so the search works on
`4 · m` and compares natural numbers only.

The search walks the decimal grids from coarse to fine.  If a grid has a point in the interval, one
of the two grid points around the number is in it, so testing those two is enough.
-/

set_option autoImplicit false

namespace ScriptPool
namespace Decimal

/-- A positive decimal `digits · 10^exponent`. -/
structure Scaled where
  digits : Nat
  exponent : Int
  deriving Repr, DecidableEq

/-- Is the gap below `m · 2^q` only half as wide as the gap above? -/
def narrowBelow (m : Nat) (q : Int) : Bool := m = 2 ^ 52 && q ≠ -1074

/-- The corners of the rounding interval and the number itself, over a common denominator. -/
structure Interval where
  low : Nat
  value : Nat
  high : Nat
  denominator : Nat
  /-- Do the ends round to the number as well? -/
  closed : Bool

/-- The reals that round to `m · 2^q`, counted in quarters of the last place. -/
def Interval.around (m : Nat) (q : Int) : Interval :=
  let up := (q - 2).toNat
  let down := (2 - q).toNat
  { low := (4 * m - (if narrowBelow m q then 1 else 2)) * 2 ^ up
    value := 4 * m * 2 ^ up
    high := (4 * m + 2) * 2 ^ up
    denominator := 2 ^ down
    closed := m % 2 == 0 }

/-- The same interval measured in units of `10^k`. -/
def Interval.inUnits (i : Interval) (k : Int) : Interval :=
  let up := 10 ^ (-k).toNat
  { i with
    low := i.low * up
    value := i.value * up
    high := i.high * up
    denominator := i.denominator * 10 ^ k.toNat }

/-- Does the whole number `c` of units lie in the interval? -/
def Interval.holds (i : Interval) (c : Nat) : Bool :=
  let point := c * i.denominator
  if i.closed then i.low ≤ point && point ≤ i.high else i.low < point && point < i.high

/-- The grid point of the interval nearest to the number, if one of the two around it is inside.
A tie goes to the even one. -/
def Interval.nearest? (i : Interval) : Option Nat :=
  let below := i.value / i.denominator
  let rest := i.value % i.denominator
  let above := below + 1
  match i.holds below, i.holds above with
  | true, true =>
      if 2 * rest < i.denominator then some below
      else if i.denominator < 2 * rest then some above
      else some (if below % 2 = 0 then below else above)
  | true, false => some below
  | false, true => some above
  | false, false => none

/-- Drops trailing zeros into the exponent. -/
def Scaled.stripZeros : Nat → Scaled → Scaled
  | 0, d => d
  | fuel + 1, d =>
      if d.digits ≠ 0 ∧ d.digits % 10 = 0 then
        Scaled.stripZeros fuel ⟨d.digits / 10, d.exponent + 1⟩
      else d

/-- Tries the grids `10^k`, `10^(k-1)`, … in turn. -/
def searchGrids (i : Interval) : Nat → Int → Scaled
  | 0, k => ⟨(i.inUnits k).value / (i.inUnits k).denominator, k⟩
  | steps + 1, k =>
      match (i.inUnits k).nearest? with
      | some c => ⟨c, k⟩
      | none => searchGrids i steps (k - 1)

/-- An exponent whose power of ten is above `m · 2^q` by a factor of at most a thousand. -/
def coarseGrid (m : Nat) (q : Int) : Int :=
  Int.fdiv (((m.log2 : Int) + q) * 30103) 100000 + 2

/-- The shortest decimal that reads back as `m · 2^q`, for `m > 0`.  Seventeen digits always do, and
the search starts at most three grids above the first of them. -/
def shortest (m : Nat) (q : Int) : Scaled :=
  (searchGrids (Interval.around m q) 24 (coarseGrid m q)).stripZeros 400

/-- The shortest decimal of a float's magnitude, `0` for the zeros. -/
def shortest? (x : Float) : Option Scaled :=
  match Binary.read x with
  | .finite _ m q => some (if m = 0 then ⟨0, 0⟩ else shortest m q)
  | _ => none

example : shortest? 0.1 = some ⟨1, -1⟩ := by decide +kernel
example : shortest? (0.1 + 0.2) = some ⟨30000000000000004, -17⟩ := by decide +kernel
example : shortest? 5e-324 = some ⟨5, -324⟩ := by decide +kernel
example : shortest? 1e22 = some ⟨1, 22⟩ := by decide +kernel
example : shortest? 9007199254740993.0 = some ⟨9007199254740992, 0⟩ := by decide +kernel

end Decimal
end ScriptPool
