import ScriptPool.Json.Basic

/-!
# Reading JSON

`Json.parse?` accepts exactly the JSON grammar, with three limits: arrays and objects nest at most
`nestingLimit` deep, a number must lie in the range of binary64, and surrogate escapes must come in
pairs.  Of two members with one name the later wins.

A number with a fraction, an exponent or too many digits becomes a float by one multiplication or
division of its leading digits with a power of ten: at most `2^64` of digits are taken in, the rest
only move the point.  The result can be off by a unit in the last place from the nearest float;
`scale` says exactly what it is.
-/

set_option autoImplicit false

namespace ScriptPool
namespace Json

/-- Arrays and objects nest at most this deep. -/
def nestingLimit : Nat := 127

/-- Blank characters of JSON. -/
def isSpace (c : Char) : Bool := c = ' ' || c = '\n' || c = '\t' || c = '\r'

/-- Skips blanks. -/
def skipSpace (cs : List Char) : List Char := cs.dropWhile isSpace

/-! ## Numbers -/

/-- A power of ten as a float. -/
def powerOfTen (n : Nat) : Float := Float.ofScientific 1 false n

/-- `significand · 10^exponent` by one rounding step, or by several where the exponent is below the
range of binary64; `none` when the result is too large. -/
def scale (significand : Nat) (exponent : Int) : Option Float :=
  let f := Float.ofNat significand
  if 0 ≤ exponent then
    if f == 0 then some f
    else if 308 < exponent then none
    else
      let r := f * powerOfTen exponent.toNat
      if r.isInf then none else some r
  else
    let down := (-exponent).toNat
    some (lower (down / 309 + 1) f down)
where
  /-- Divides by `10^down` in steps of at most `10^308`. -/
  lower : Nat → Float → Nat → Float
  | 0, f, _ => f
  | steps + 1, f, down =>
      if down ≤ 308 then f / powerOfTen down
      else if f == 0 then f
      else lower steps (f / powerOfTen 308) (down - 308)

/-- Takes digits into a significand as long as it stays below `2^64`.  Gives the significand, the
number of digits taken, and what is left. -/
def takeDigits (significand : Nat) : List Char → Nat × Nat × List Char
  | [] => (significand, 0, [])
  | c :: rest =>
      if c.isDigit then
        let next := significand * 10 + (c.toNat - '0'.toNat)
        if next < 2 ^ 64 then
          let (s, n, r) := takeDigits next rest
          (s, n + 1, r)
        else (significand, 0, c :: rest)
      else (significand, 0, c :: rest)

/-- The digits in front of a text, and what follows them. -/
def splitDigits (cs : List Char) : List Char × List Char :=
  (cs.takeWhile Char.isDigit, cs.dropWhile Char.isDigit)

/-- The value of digits. -/
def digitsValue (cs : List Char) : Nat := cs.foldl (fun n c => 10 * n + (c.toNat - '0'.toNat)) 0

/-- A float with its sign, from an exponent part if there is one. -/
def finishFloat (neg : Bool) (significand : Nat) (exponent : Int) (cs : List Char) :
    Option (Json × List Char) :=
  let sign (x : Float) : Json := .float (if neg then -x else x)
  match cs with
  | e :: rest =>
      if e = 'e' || e = 'E' then
        let (down, rest) := match rest with
          | '+' :: r => (false, r)
          | '-' :: r => (true, r)
          | r => (false, r)
        let (digits, rest) := splitDigits rest
        if digits.isEmpty then none
        else
          let shift := digitsValue digits
          if 2 ^ 31 ≤ shift then
            if significand ≠ 0 && !down then none else some (sign 0, rest)
          else
            (scale significand (if down then exponent - shift else exponent + shift)).map
              fun x => (sign x, rest)
      else (scale significand exponent).map fun x => (sign x, cs)
  | [] => (scale significand exponent).map fun x => (sign x, [])

/-- A number, without its sign: digits, a fraction and an exponent. -/
def magnitude (neg : Bool) (cs : List Char) : Option (Json × List Char) := do
  let (whole, rest) := splitDigits cs
  if whole.isEmpty then none
  if whole.head? = some '0' && whole.length ≠ 1 then none
  let (significand, _, dropped) := takeDigits 0 whole
  match rest with
  | '.' :: rest =>
      let (places, rest) := splitDigits rest
      if places.isEmpty then none
      let (significand, taken, _) := takeDigits significand places
      finishFloat neg significand (dropped.length - (taken : Int)) rest
  | _ =>
      let floating := dropped.length ≠ 0 || rest.head? = some 'e' || rest.head? = some 'E'
        || (neg && (significand = 0 || 2 ^ 63 < significand))
      if floating then finishFloat neg significand dropped.length rest
      else some (.integer (if neg then -(significand : Int) else significand), rest)

/-- A number. -/
def readNumber (cs : List Char) : Option (Json × List Char) :=
  match cs with
  | '-' :: rest => magnitude true rest
  | _ => magnitude false cs

/-! ## Strings -/

/-- The value of a hexadecimal digit. -/
def hexDigit? (c : Char) : Option Nat :=
  if c.isDigit then some (c.toNat - '0'.toNat)
  else if 'a' ≤ c && c ≤ 'f' then some (c.toNat - 'a'.toNat + 10)
  else if 'A' ≤ c && c ≤ 'F' then some (c.toNat - 'A'.toNat + 10)
  else none

/-- Four hexadecimal digits. -/
def hexFour : List Char → Option (Nat × List Char)
  | a :: b :: c :: d :: rest => do
      let a ← hexDigit? a
      let b ← hexDigit? b
      let c ← hexDigit? c
      let d ← hexDigit? d
      some (((a * 16 + b) * 16 + c) * 16 + d, rest)
  | _ => none

/-- What follows a backslash and a `u`: one code unit, or a pair of surrogates. -/
def unicodeEscape (cs : List Char) : Option (Char × List Char) := do
  let (unit, rest) ← hexFour cs
  if 0xdc00 ≤ unit && unit ≤ 0xdfff then none
  else if 0xd800 ≤ unit && unit ≤ 0xdbff then
    match rest with
    | '\\' :: 'u' :: rest =>
        let (low, rest) ← hexFour rest
        if 0xdc00 ≤ low && low ≤ 0xdfff then
          some (Char.ofNat (0x10000 + (unit - 0xd800) * 0x400 + (low - 0xdc00)), rest)
        else none
    | _ => none
  else some (Char.ofNat unit, rest)

/-- The characters that stand for something else behind a backslash. -/
def plainEscape? : Char → Option Char
  | '"' => some '"'
  | '\\' => some '\\'
  | '/' => some '/'
  | 'b' => some (Char.ofNat 8)
  | 'f' => some (Char.ofNat 12)
  | 'n' => some '\n'
  | 'r' => some '\r'
  | 't' => some '\t'
  | _ => none

/-- The inside of a string, up to and with the closing quote; `fuel` bounds its length. -/
def stringTail : Nat → List Char → Option (List Char × List Char)
  | 0, _ => none
  | _, [] => none
  | _, '"' :: rest => some ([], rest)
  | fuel + 1, '\\' :: rest => do
      let (c, rest) ← match rest with
        | 'u' :: rest => unicodeEscape rest
        | c :: rest => (plainEscape? c).map fun e => (e, rest)
        | [] => none
      let (tail, rest) ← stringTail fuel rest
      some (c :: tail, rest)
  | fuel + 1, c :: rest => do
      if c.toNat < 0x20 then none
      let (tail, rest) ← stringTail fuel rest
      some (c :: tail, rest)

/-- A string whose opening quote has been read. -/
def readString (cs : List Char) : Option (String × List Char) :=
  (stringTail (cs.length + 1) cs).map fun (chars, rest) => (String.ofList chars, rest)

/-! ## Documents -/

/-- Adds a member at its place in the order of names, or replaces it. -/
def insertMember (name : String) (item : Json) : List (String × Json) → List (String × Json)
  | [] => [(name, item)]
  | (other, j) :: rest =>
      if name = other then (name, item) :: rest
      else if name < other then (name, item) :: (other, j) :: rest
      else (other, j) :: insertMember name item rest

/-- A word with a fixed meaning. -/
def keyword (word : String) (meaning : Json) (cs : List Char) : Option (Json × List Char) :=
  if word.toList.isPrefixOf cs then some (meaning, cs.drop word.length) else none

mutual

/-- A document at the start of a text, which may nest `depth` levels; `fuel` bounds the steps. -/
def readDocument : Nat → Nat → List Char → Option (Json × List Char)
  | 0, _, _ => none
  | fuel + 1, depth, cs =>
      match skipSpace cs with
      | 'n' :: rest => keyword "null" .null ('n' :: rest)
      | 't' :: rest => keyword "true" (.bool true) ('t' :: rest)
      | 'f' :: rest => keyword "false" (.bool false) ('f' :: rest)
      | '"' :: rest => (readString rest).map fun (s, rest) => (.string s, rest)
      | '[' :: rest =>
          if depth = 0 then none
          else
            match skipSpace rest with
            | ']' :: rest => some (.array [], rest)
            | rest => (readElements fuel (depth - 1) rest).map fun (items, rest) => (.array items, rest)
      | '\x7b' :: rest =>
          if depth = 0 then none
          else
            match skipSpace rest with
            | '\x7d' :: rest => some (.object [], rest)
            | rest => (readMembers fuel (depth - 1) [] rest).map fun (ms, rest) => (.object ms, rest)
      | rest => readNumber rest

/-- One or more elements and the closing bracket. -/
def readElements : Nat → Nat → List Char → Option (List Json × List Char)
  | 0, _, _ => none
  | fuel + 1, depth, cs => do
      let (item, rest) ← readDocument fuel depth cs
      match skipSpace rest with
      | ',' :: rest =>
          let (items, rest) ← readElements fuel depth rest
          some (item :: items, rest)
      | ']' :: rest => some ([item], rest)
      | _ => none

/-- One or more members and the closing brace, added to the members read so far. -/
def readMembers : Nat → Nat → List (String × Json) → List Char →
    Option (List (String × Json) × List Char)
  | 0, _, _, _ => none
  | fuel + 1, depth, sofar, cs => do
      match skipSpace cs with
      | '"' :: rest =>
          let (name, rest) ← readString rest
          match skipSpace rest with
          | ':' :: rest =>
              let (item, rest) ← readDocument fuel depth rest
              let sofar := insertMember name item sofar
              match skipSpace rest with
              | ',' :: rest => readMembers fuel depth sofar rest
              | '\x7d' :: rest => some (sofar, rest)
              | _ => none
          | _ => none
      | _ => none

end

/-- Reads a whole text as one document. -/
def parse? (text : String) : Option Json := do
  let cs := text.toList
  let (j, rest) ← readDocument (cs.length + 1) nestingLimit cs
  if (skipSpace rest).isEmpty then some j else none

end Json
end ScriptPool
