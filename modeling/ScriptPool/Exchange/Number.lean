import ScriptPool.Json.Reader

/-!
# Exact numbers and bytes in documents

JSON has one kind of number and readers disagree about it.  Documents of this library use it only
for integers below `2^53` in magnitude, which everyone reads alike.  Other floats are written as
their bits, other integers as decimal text, and bytes in hexadecimal.
-/

set_option autoImplicit false

namespace ScriptPool
namespace Exchange

/-! ## Bytes -/

/-- The value of a run of hexadecimal digits. -/
def hexNumber? (s : String) : Option Nat :=
  s.toList.foldlM (fun n c => (Json.hexDigit? c).map (16 * n + ·)) 0

/-- Reads pairs of hexadecimal digits. -/
def readPairs : List Char → ByteArray → Option ByteArray
  | [], sofar => some sofar
  | a :: b :: rest, sofar => do
      let high ← Json.hexDigit? a
      let low ← Json.hexDigit? b
      readPairs rest (sofar.push (16 * high + low).toUInt8)
  | [_], _ => none

/-- The bytes of an even run of hexadecimal digits. -/
def hexBytes? (s : String) : Option ByteArray := readPairs s.toList ByteArray.empty

/-- Bytes in hexadecimal. -/
def hexText (bytes : ByteArray) : String :=
  String.ofList (bytes.data.toList.flatMap fun b =>
    [Nat.digitChar (b.toNat / 16), Nat.digitChar (b.toNat % 16)])

/-! ## Integers -/

/-- Integers below this are written as numbers. -/
def plainBound : Nat := 2 ^ 53

/-- A natural number. -/
def natural (n : Nat) : Json := if n < plainBound then .integer n else .string (toString n)

/-- A run of digits as a number. -/
def digits? (digits : List Char) : Option Nat :=
  if digits.isEmpty || !digits.all Char.isDigit then none else some (Json.digitsValue digits)

/-- A decimal integer with an optional sign. -/
def decimalInteger? (s : String) : Option Int :=
  match s.toList with
  | '-' :: digits => (digits? digits).map fun n => -(n : Int)
  | '+' :: digits => (digits? digits).map fun n => (n : Int)
  | digits => (digits? digits).map fun n => (n : Int)

/-- An integer, as a number or as text. -/
def readInteger? : Json → Option Int
  | .integer n => some n
  | .string s => decimalInteger? s
  | _ => none

/-- A natural number, as a number or as text. -/
def readNatural? (j : Json) : Option Nat := (readInteger? j).map Int.toNat

/-! ## Floats -/

/-- The bits of a float as sixteen hexadecimal digits. -/
def bitsText (x : Float) : String :=
  let digits := String.ofList (Nat.toDigits 16 x.toBits.toNat)
  Decimal.zeros (16 - digits.length) ++ digits

/-- The form of a float that is not written as a number. -/
def special (s : String) : Json := .object [("n", .string s)]

/-- A float. -/
def number (x : Float) : Json :=
  if x.isNaN then special "nan"
  else
    match Decimal.integer? x with
    | some n =>
        if n.natAbs < plainBound ∧ ¬ (n = 0 ∧ Decimal.signBit x) then .integer n
        else special (bitsText x)
    | none => special (bitsText x)

/-- Reads a float: a number, or an object that names it or gives its bits. -/
def readNumber? : Json → Option Float
  | .integer n => some (Float.ofInt n)
  | .float x => some x
  | .object [("n", .string "nan")] => some (0.0 / 0.0)
  | .object [("n", .string "inf")] => some (1.0 / 0.0)
  | .object [("n", .string "-inf")] => some (-1.0 / 0.0)
  | .object [("n", .string bits)] =>
      if bits.length = 16 then (hexNumber? bits).map fun n => Float.ofBits n.toUInt64 else none
  | _ => none

/-- Something that may be absent. -/
def optional {α : Type} (write : α → Json) (a : Option α) : Json := (a.map write).getD .null

end Exchange
end ScriptPool
