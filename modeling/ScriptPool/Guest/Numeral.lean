import ScriptPool.Guest.Value

/-!
# Numbers and strings of the guest

The language writes numbers when it needs text and reads text when it needs numbers.  A float is
written with fourteen significant digits, and with `.0` if it would look like an integer.  Text is
read as an integer if it fits, and as a float otherwise; hexadecimal integers wrap around.
-/

set_option autoImplicit false

namespace ScriptPool

/-! ## Writing -/

/-- The magnitude `m · 2^q` rounded to `digits` significant digits, halves to even: a decimal with
at most that many digits. -/
def roundSignificant (digits m : Nat) (q : Int) : Decimal.Scaled :=
  let num := m * 2 ^ q.toNat
  let den := 2 ^ (-q).toNat
  -- the least exponent for which the quotient has at most `digits` digits
  let start := Decimal.coarseGrid m q - digits - 3
  go num den 8 start
where
  /-- The quotient `num / (den · 10^k)` rounded to an integer. -/
  rounded (num den : Nat) (k : Int) : Nat :=
    let n := num * 10 ^ (-k).toNat
    let d := den * 10 ^ k.toNat
    let down := n / d
    let rest := n % d
    if d < 2 * rest ∨ (2 * rest = d ∧ down % 2 = 1) then down + 1 else down
  /-- Raises the exponent until the integer part fits. -/
  go (num den : Nat) : Nat → Int → Decimal.Scaled
    | 0, k => ⟨rounded num den k, k⟩
    | steps + 1, k =>
        let n := num * 10 ^ (-k).toNat
        let d := den * 10 ^ k.toNat
        if n / d < 10 ^ digits then ⟨rounded num den k, k⟩ else go num den steps (k + 1)

/-- Exponents of at least two digits. -/
def exponentText (e : Int) : String :=
  let digits := Decimal.digitText e.natAbs
  (if e < 0 then "-" else "+") ++ (if digits.length < 2 then "0" else "") ++ digits

/-- A float as the language writes it. -/
def guestFloatText (x : Float) : String :=
  match Decimal.Binary.read x with
  | .nan => if Decimal.signBit x then "-nan" else "nan"
  | .infinite neg => if neg then "-inf" else "inf"
  | .finite neg m q =>
      let sign := if neg then "-" else ""
      if m = 0 then sign ++ "0.0"
      else
        let d := (roundSignificant 14 m q).stripZeros 400
        let count := (Decimal.digitText d.digits).length
        let e : Int := d.exponent + (count - 1 : Nat)
        if -4 ≤ e ∧ e < 14 then sign ++ d.positional true
        else
          let text := Decimal.digitText d.digits
          let fraction := (text.drop 1).toString
          sign ++ (text.take 1).toString ++ (if fraction.isEmpty then "" else "." ++ fraction) ++ "e"
            ++ exponentText e

/-! ## Reading -/

/-- Blanks around a numeral. -/
def isNumeralSpace (c : Char) : Bool := c = ' ' || (9 ≤ c.toNat && c.toNat ≤ 13)

/-- The value of a hexadecimal digit. -/
def hexValue? (c : Char) : Option Nat :=
  if c.isDigit then some (c.toNat - '0'.toNat)
  else if 'a' ≤ c && c ≤ 'f' then some (c.toNat - 'a'.toNat + 10)
  else if 'A' ≤ c && c ≤ 'F' then some (c.toNat - 'A'.toNat + 10)
  else none

/-- A sign in front of a numeral. -/
def numeralSign : List Char → Bool × List Char
  | '-' :: rest => (true, rest)
  | '+' :: rest => (false, rest)
  | cs => (false, cs)

/-- An optional exponent: the marker, a sign, and digits, up to the end. -/
def numeralExponent? (marker : Char) : List Char → Option Int
  | [] => some 0
  | c :: rest =>
      if c.toLower = marker then
        let (neg, digits) := numeralSign rest
        if digits ≠ [] ∧ digits.all Char.isDigit then
          let n : Int := (digits.foldl (fun n c => 10 * n + (c.toNat - '0'.toNat)) 0 : Nat)
          some (if neg then -n else n)
        else none
      else none

/-- The digits of a numeral around its point, and what follows them. -/
def numeralDigits (isDigit : Char → Bool) (cs : List Char) : List Char × List Char × List Char :=
  let whole := cs.takeWhile isDigit
  match cs.dropWhile isDigit with
  | '.' :: rest => (whole, rest.takeWhile isDigit, rest.dropWhile isDigit)
  | rest => (whole, [], rest)

/-- `m · 2^e` as the nearest float, by exact decimals. -/
def scaleByTwo (m : Nat) (e : Int) : Float :=
  if 0 ≤ e then Float.ofScientific (m * 2 ^ (min e.toNat 2000)) false 0
  else
    let k := min (-e).toNat 3000
    Float.ofScientific (m * 5 ^ k) true k

/-- The number a text stands for. -/
def numeral? (bytes : ByteArray) : Option GuestValue := do
  let text ← String.fromUTF8? bytes
  let cs := ((text.toList.dropWhile isNumeralSpace).reverse.dropWhile isNumeralSpace).reverse
  let (neg, unsigned) := numeralSign cs
  let signed (x : Float) : GuestValue := .float (if neg then -x else x)
  match unsigned with
  | '0' :: x :: rest =>
      if x.toLower = 'x' then
        let (whole, places, tail) := numeralDigits (fun c => (hexValue? c).isSome) rest
        if whole.isEmpty && places.isEmpty then none
        let n := (whole ++ places).foldl (fun n c => 16 * n + (hexValue? c).getD 0) 0
        if places.isEmpty && tail.isEmpty && !rest.contains '.' then
          some (GuestValue.ofInt (if neg then -(n : Int) else n))
        else
          let e ← numeralExponent? 'p' tail
          some (signed (scaleByTwo n (e - 4 * places.length)))
      else decimal neg unsigned signed
  | _ => decimal neg unsigned signed
where
  /-- A decimal numeral without its sign. -/
  decimal (neg : Bool) (cs : List Char) (signed : Float → GuestValue) : Option GuestValue := do
    let (whole, places, tail) := numeralDigits Char.isDigit cs
    if whole.isEmpty && places.isEmpty then none
    let n := (whole ++ places).foldl (fun n c => 10 * n + (c.toNat - '0'.toNat)) 0
    let integral := tail.isEmpty && !cs.contains '.'
    let value : Int := if neg then -(n : Int) else n
    if integral && -(2 ^ 63) ≤ value && value < 2 ^ 63 then some (GuestValue.ofInt value)
    else
      let e ← numeralExponent? 'e' tail
      let e := max (min (e - places.length) 400) (-2000 - (whole.length + places.length))
      some (signed (if 0 ≤ e then Float.ofScientific n false e.toNat
        else Float.ofScientific n true (-e).toNat))

namespace GuestValue

/-- The text of a number or string. -/
def scalarText? : GuestValue → Option ByteArray
  | .integer n => some (toString n.toInt).toUTF8
  | .float x => some (guestFloatText x).toUTF8
  | .string bytes => some bytes
  | _ => none

/-- The number that a value is or stands for. -/
def number? : GuestValue → Option GuestValue
  | .integer n => some (.integer n)
  | .float x => some (.float x)
  | .string bytes => numeral? bytes
  | _ => none

/-- The value as host text, where it is a number or a string. -/
def toHostString (v : GuestValue) : Except GuestFault String :=
  match v.scalarText? with
  | none => .error (.mismatch v.typeName "String" (some "expected string or number"))
  | some bytes =>
      match String.fromUTF8? bytes with
      | some s => .ok s
      | none =>
          .error (.mismatch v.typeName "String"
            (some ((Text.utf8Fault? bytes).getD "invalid utf-8")))

/-- The value as optional host text. -/
def toHostString? : GuestValue → Except GuestFault (Option String)
  | .nil => .ok none
  | v => v.toHostString.map some

/-- The value as a host integer: floats lose their fraction, and numerals are read. -/
def toHostInteger (v : GuestValue) : Except GuestFault Int64 :=
  match v.number? with
  | some (.integer n) => .ok n
  | some (.float x) =>
      match Decimal.truncated? x with
      | some n =>
          if -(2 ^ 63) ≤ n ∧ n < 2 ^ 63 then .ok (Int64.ofInt n)
          else .error (.mismatch v.typeName "i64" (some "out of range"))
      | none => .error (.mismatch v.typeName "i64" (some "out of range"))
  | _ => .error (.mismatch v.typeName "i64" (some "expected number or string coercible to number"))

end GuestValue
end ScriptPool
