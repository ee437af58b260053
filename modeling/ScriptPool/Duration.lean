import ScriptPool.Decimal.Layout
import ScriptPool.Text.Blank

/-!
# Durations

A span of time is a number of nanoseconds.  It has three written forms.

* `Duration.parse?` and `Duration.format` are the form used in configuration files: a whole number
  with one of the units `ms`, `s`, `m`, `h`, and seconds when no unit is given.  `format` always
  takes the largest unit that divides the span exactly, after dropping what is below a millisecond.
* `Duration.describe` is the form used in messages: the largest of `s`, `ms`, `µs`, `ns` of which
  the span has at least one, with as many decimals as the span needs.
-/

set_option autoImplicit false

namespace ScriptPool

/-- A span of time. -/
structure Duration where
  nanos : Nat
  deriving Repr, DecidableEq, Inhabited

namespace Duration

/-- Whole milliseconds. -/
def ofMillis (ms : Nat) : Duration := ⟨ms * 1000000⟩

/-- Whole seconds. -/
def ofSecs (s : Nat) : Duration := ⟨s * 1000000000⟩

/-- The whole milliseconds of a span. -/
def millis (d : Duration) : Nat := d.nanos / 1000000

/-- The empty span. -/
def zero : Duration := ⟨0⟩

/-- Is the span empty? -/
def isZero (d : Duration) : Bool := d.nanos == 0

/-! ## The form of configuration files -/

/-- The units of configuration files. -/
inductive Unit where
  | millisecond | second | minute | hour
  deriving Repr, DecidableEq

/-- Milliseconds in a unit. -/
def Unit.millis : Unit → Nat
  | .millisecond => 1
  | .second => 1000
  | .minute => 60000
  | .hour => 3600000

/-- How a unit is written. -/
def Unit.symbol : Unit → List Char
  | .millisecond => ['m', 's']
  | .second => ['s']
  | .minute => ['m']
  | .hour => ['h']

/-- Splits the unit off the end of a text; the longest unit wins, and seconds are meant when there
is none. -/
def splitUnit (cs : List Char) : List Char × Unit :=
  match cs.reverse with
  | 's' :: 'm' :: r => (r.reverse, .millisecond)
  | 's' :: r => (r.reverse, .second)
  | 'm' :: r => (r.reverse, .minute)
  | 'h' :: r => (r.reverse, .hour)
  | _ => (cs, .second)

/-- The value of a run of digits, most significant first. -/
def digitsValue (cs : List Char) : Nat := cs.foldl (fun n c => 10 * n + (c.toNat - '0'.toNat)) 0

/-- An optional plus sign in front of a number means nothing. -/
def dropPlus : List Char → List Char
  | '+' :: r => r
  | cs => cs

/-- One or more ASCII digits. -/
def natural? (cs : List Char) : Option Nat :=
  if cs ≠ [] ∧ cs.all Char.isDigit then some (digitsValue cs) else none

/-- The bound below which counts, and spans in milliseconds, must stay. -/
def bound : Nat := 2 ^ 64

/-- Reads a span, or fails with the text that could not be read, freed of surrounding blanks. -/
def parse (s : String) : Except String Duration :=
  let text := Text.trimBlanks s.toList
  let (digits, unit) := splitUnit text
  match natural? (dropPlus (Text.trimBlanks digits)) with
  | none => .error (String.ofList text)
  | some n =>
      if n < bound ∧ n * unit.millis < bound then .ok (ofMillis (n * unit.millis))
      else .error (String.ofList text)

/-- The largest unit that divides a positive number of milliseconds. -/
def largestUnit (ms : Nat) : Unit :=
  if ms % 3600000 = 0 then .hour
  else if ms % 60000 = 0 then .minute
  else if ms % 1000 = 0 then .second
  else .millisecond

/-- Writes the whole milliseconds of a span in the largest unit that divides them. -/
def format (d : Duration) : String :=
  if d.millis = 0 then "0s"
  else
    let unit := largestUnit d.millis
    Decimal.digitText (d.millis / unit.millis) ++ String.ofList unit.symbol

/-! ## The form of messages -/

/-- `whole` and `part / 10^places` as a decimal without trailing zeros. -/
def withFraction (whole part places : Nat) : String :=
  if part = 0 then Decimal.digitText whole
  else
    (Decimal.Scaled.stripZeros places ⟨whole * 10 ^ places + part, -(places : Int)⟩).positional false

/-- Writes a span in the largest unit of which it has at least one, exactly. -/
def describe (d : Duration) : String :=
  let n := d.nanos
  if 1000000000 ≤ n then withFraction (n / 1000000000) (n % 1000000000) 9 ++ "s"
  else if 1000000 ≤ n then withFraction (n / 1000000) (n % 1000000) 6 ++ "ms"
  else if 1000 ≤ n then withFraction (n / 1000) (n % 1000) 3 ++ "µs"
  else Decimal.digitText n ++ "ns"

example : (ofMillis 1500).describe = "1.5s" := by decide +kernel
example : (⟨1500⟩ : Duration).describe = "1.5µs" := by decide +kernel
example : (⟨1000001000⟩ : Duration).describe = "1.000001s" := by decide +kernel
example : (ofMillis 90000).format = "90s" := by decide +kernel
example : (parse " +2 m").toOption = some (ofMillis 120000) := by decide +kernel
example : (parse "5 days").toOption = none := by decide +kernel

end Duration
end ScriptPool
