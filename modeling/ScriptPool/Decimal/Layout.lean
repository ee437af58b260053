import ScriptPool.Decimal.Shortest

/-!
# Laying out a decimal

A chosen decimal is written either positionally (`0.001`, `1000`) or with an exponent (`1e-7`).
Which of the two, and the small print around them, differs between the places where this library
writes numbers, so the small print is a record, `Layout`, and every writer has its own value of it.
-/

set_option autoImplicit false

namespace ScriptPool
namespace Decimal

/-- How a number is written. -/
structure Layout where
  /-- Numbers `d.ddd · 10^e` with `lo ≤ e < hi` are written positionally; without bounds, all. -/
  positional : Option (Int × Int)
  /-- Is `.0` written after an integral number in positional form? -/
  pointZero : Bool
  /-- Is a plus sign written in front of a positive exponent? -/
  plusExponent : Bool
  /-- The text for what is not a number. -/
  nan : String
  /-- The text for infinity; a minus sign goes in front of the negative one. -/
  infinity : String

/-- Digits as text. -/
def digitText (n : Nat) : String := String.ofList (Nat.toDigits 10 n)

/-- `n` zeros. -/
def zeros (n : Nat) : String := String.ofList (List.replicate n '0')

/-- The number without an exponent: the digits, padded with zeros up to the point on either side. -/
def Scaled.positional (pointZero : Bool) (d : Scaled) : String :=
  let text := digitText d.digits
  if 0 ≤ d.exponent then
    text ++ zeros d.exponent.toNat ++ (if pointZero then ".0" else "")
  else
    let places := (-d.exponent).toNat
    if places < text.length then
      (text.take (text.length - places)).toString ++ "." ++ (text.drop (text.length - places)).toString
    else "0." ++ zeros (places - text.length) ++ text

/-- The number as `d.ddde±x`; a single digit has no point. -/
def Scaled.scientific (plus : Bool) (d : Scaled) : String :=
  let text := digitText d.digits
  let e : Int := d.exponent + (text.length - 1 : Nat)
  let fraction := (text.drop 1).toString
  (text.take 1).toString ++ (if fraction.isEmpty then "" else "." ++ fraction) ++ "e"
    ++ (if e < 0 then "-" else if plus then "+" else "") ++ digitText e.natAbs

/-- Writes a decimal by the rules of a layout. -/
def Scaled.write (layout : Layout) (d : Scaled) : String :=
  match layout.positional with
  | none => d.positional layout.pointZero
  | some (lo, hi) =>
      let e : Int := d.exponent + ((digitText d.digits).length - 1 : Nat)
      if d.digits = 0 ∨ (lo ≤ e ∧ e < hi) then d.positional layout.pointZero
      else d.scientific layout.plusExponent

/-- Writes a float by the rules of a layout.  The minus sign of `-0.0` is kept. -/
def Layout.write (layout : Layout) (x : Float) : String :=
  match Binary.read x with
  | .nan => layout.nan
  | .infinite neg => (if neg then "-" else "") ++ layout.infinity
  | .finite neg m q =>
      (if neg then "-" else "") ++ (if m = 0 then ⟨0, 0⟩ else shortest m q : Scaled).write layout

/-- Numbers in running text and in error messages: never an exponent, and no point after an
integral number. -/
def Layout.plain : Layout := ⟨none, false, false, "NaN", "inf"⟩

example : Layout.plain.write 1e21 = "1000000000000000000000" := by decide +kernel
example : Layout.plain.write (-0.0) = "-0" := by decide +kernel
example : Layout.plain.write 0.0000001 = "0.0000001" := by decide +kernel
example : (⟨some (-5, 16), true, true, "NaN", "inf"⟩ : Layout).write 1.5e16 = "1.5e+16" := by
  decide +kernel

end Decimal
end ScriptPool
