/-!
# Exact readings of binary64 numbers

A finite `Float` is an integer times a power of two.  `Binary.read` says which one, straight from
the sixty-four bits, so everything that must be exact about a number is integer arithmetic from
there on: whether it is integral, its floor and ceiling, the integer it stands for, and the
shortest decimal that reads back as it (`ScriptPool.Decimal.Shortest`).

## What is here

* `Binary.read` — not a number, an infinity, or `± m · 2^q`.
* `integer?` — the integer a float stands for, when it stands for one.  Both zeros stand for `0`.
* `truncated`, `floorNat`, `ceilNat` — rounding to integers that never wraps: what is out of range
  is clamped by the caller, what is not a number gives `0`.
-/

set_option autoImplicit false

-- what `2 ^ k` means here does not depend on what else is imported
attribute [instance (2000)] instPowNat
attribute [default_instance 20000] instPowNat

namespace ScriptPool
namespace Decimal

/-- What the bits of a `Float` say: `finite neg m q` is `m · 2^q`, negated when `neg` holds. -/
inductive Binary where
  | nan
  | infinite (neg : Bool)
  | finite (neg : Bool) (mantissa : Nat) (exponent : Int)
  deriving Repr, DecidableEq

namespace Binary

/-- The three fields of a binary64 word: sign, biased exponent and fraction. -/
def ofBits (bits : UInt64) : Binary :=
  let word := bits.toNat
  let neg : Bool := 2 ^ 63 ≤ word
  let biased : Nat := word / 2 ^ 52 % 2 ^ 11
  let fraction : Nat := word % 2 ^ 52
  if biased = 2047 then
    if fraction = 0 then .infinite neg else .nan
  else if biased = 0 then .finite neg fraction (-1074)
  else .finite neg (2 ^ 52 + fraction) ((biased : Int) - 1075)

/-- The reading of a float. -/
def read (x : Float) : Binary := ofBits x.toBits

end Binary

/-- The integer that `m · 2^q` stands for, if it is integral. -/
def scaledInteger? (m : Nat) (q : Int) : Option Nat :=
  match q with
  | .ofNat k => some (m * 2 ^ k)
  | .negSucc k => if m % 2 ^ (k + 1) = 0 then some (m / 2 ^ (k + 1)) else none

/-- The integral part of `m · 2^q`. -/
def scaledFloor (m : Nat) (q : Int) : Nat :=
  match q with
  | .ofNat k => m * 2 ^ k
  | .negSucc k => m / 2 ^ (k + 1)

/-- The least natural number that is not below `m · 2^q`. -/
def scaledCeil (m : Nat) (q : Int) : Nat :=
  match q with
  | .ofNat k => m * 2 ^ k
  | .negSucc k => (m + 2 ^ (k + 1) - 1) / 2 ^ (k + 1)

/-- A sign put in front of a magnitude. -/
def signed (neg : Bool) (n : Nat) : Int := if neg then -(n : Int) else n

/-- The integer a float stands for: `none` for fractions, infinities and what is not a number.
Both zeros give `0`. -/
def integer? (x : Float) : Option Int :=
  match Binary.read x with
  | .finite neg m q => (scaledInteger? m q).map (signed neg)
  | _ => none

/-- The integer next to a finite float on the side of zero; `none` when the float is not finite. -/
def truncated? (x : Float) : Option Int :=
  match Binary.read x with
  | .finite neg m q => some (signed neg (scaledFloor m q))
  | _ => none

/-- The floor of a float as a natural number: negative numbers and what is not a number give `0`,
positive infinity gives `bound`, and nothing exceeds `bound`. -/
def floorNat (bound : Nat) (x : Float) : Nat :=
  match Binary.read x with
  | .finite false m q => min bound (scaledFloor m q)
  | .infinite false => bound
  | _ => 0

/-- The ceiling of a float as a natural number, clamped in the same way as `floorNat`. -/
def ceilNat (bound : Nat) (x : Float) : Nat :=
  match Binary.read x with
  | .finite false m q => min bound (scaledCeil m q)
  | .infinite false => bound
  | _ => 0

/-- Is the sign bit set?  Tells `-0.0` from `0.0`, which compare equal. -/
def signBit (x : Float) : Bool := 2 ^ 63 ≤ x.toBits.toNat

example : integer? 3.0 = some 3 := by decide +kernel
example : integer? (-0.0) = some 0 := by decide +kernel
example : integer? 0.5 = none := by decide +kernel
example : integer? (1.0 / 0.0) = none := by decide +kernel
example : truncated? (-2.75) = some (-2) := by decide +kernel
example : ceilNat (2 ^ 64 - 1) 2.25 = 3 := by decide +kernel
example : ceilNat (2 ^ 64 - 1) (-2.25) = 0 := by decide +kernel

end Decimal
end ScriptPool
