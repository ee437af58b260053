import ScriptPool.Decimal.Layout
import ScriptPool.Toml.Basic

/-!
# Writing TOML

`Toml.write` puts the plain entries of a table first, one a line, and then each table among them
under its header.

A string has up to five possible forms, and the first that can hold it is taken: between `"` if
nothing needs an escape, between `'` if nothing needs one there, between three of either, and with
escapes otherwise.
-/

set_option autoImplicit false

namespace ScriptPool
namespace Toml

/-- Floats in TOML: never an exponent, and a point in every finite number. -/
def numberLayout : Decimal.Layout := ⟨none, true, false, "nan", "inf"⟩

/-- A control character that no string form can hold as it is. -/
def isControl (c : Char) : Bool :=
  (c.toNat < 0x20 && c ≠ '\t' && c ≠ '\n') || c.toNat = 0x7f

/-- The length of the longest run of one character. -/
def longestRun (x : Char) (cs : List Char) : Nat :=
  (cs.foldl (fun (best, run) c =>
    if c = x then (max best (run + 1), run + 1) else (best, 0)) ((0, 0) : Nat × Nat)).1

/-- Two hexadecimal digits in upper case. -/
def upperHex (n : Nat) : String :=
  String.ofList [(Nat.digitChar (n / 16)).toUpper, (Nat.digitChar (n % 16)).toUpper]

/-- A character in a form with escapes; quotes and line ends are kept when the delimiter is three
quotes. -/
def escapeChar (lines : Bool) (c : Char) : String :=
  if c = '\\' then "\\\\"
  else if c = '"' then (if lines then "\"" else "\\\"")
  else if c = '\t' then "\\t"
  else if c = '\n' then (if lines then "\n" else "\\n")
  else if c.toNat = 8 then "\\b"
  else if c.toNat = 12 then "\\f"
  else if c = '\r' then "\\r"
  else if isControl c then "\\u00" ++ upperHex c.toNat
  else c.toString

/-- A `"` string over several lines: three quotes in a row would end it, so each third is escaped.
-/
def escapeLines : Nat → List Char → String
  | _, [] => ""
  | run, c :: rest =>
      if c = '"' then
        if run = 2 then "\\\"" ++ escapeLines 0 rest else "\"" ++ escapeLines (run + 1) rest
      else escapeChar true c ++ escapeLines 0 rest

/-- A string in the first form that can hold it. -/
def writeString (s : String) : String :=
  let cs := s.toList
  let lines := cs.contains '\n'
  let clean := !cs.any isControl
  let plain := clean && !cs.contains '\\'
  let first := if lines then "\n" else ""
  if plain && !cs.contains '"' && !lines then
    "\"" ++ String.join (cs.map (escapeChar false)) ++ "\""
  else if clean && !cs.contains '\'' && !lines then "'" ++ s ++ "'"
  else if plain && longestRun '"' cs ≤ 2 then
    "\"\"\"" ++ first ++ escapeLines 0 cs ++ "\"\"\""
  else if clean && longestRun '\'' cs ≤ 2 then "'''" ++ first ++ s ++ "'''"
  else if lines then "\"\"\"\n" ++ escapeLines 0 cs ++ "\"\"\""
  else "\"" ++ String.join (cs.map (escapeChar false)) ++ "\""

/-- A key, quoted if it has to be. -/
def writeKey (key : String) : String :=
  if key ≠ "" && key.toList.all (fun c => c.isAlphanum || c = '_' || c = '-') then key
  else writeString key

mutual

/-- A value on the right of an equals sign. -/
def writeInline : Item → String
  | .string s => writeString s
  | .integer n => toString n
  | .float x => numberLayout.write x
  | .boolean b => if b then "true" else "false"
  | .datetime => ""
  | .array items => "[" ++ ", ".intercalate (writeItems items) ++ "]"
  | .table entries => "\x7b " ++ ", ".intercalate (writeEntries entries) ++ " \x7d"

/-- Array elements. -/
def writeItems : List Item → List String
  | [] => []
  | item :: rest => writeInline item :: writeItems rest

/-- Entries of an inline table, or lines. -/
def writeEntries : List (String × Item) → List String
  | [] => []
  | (key, item) :: rest => (writeKey key ++ " = " ++ writeInline item) :: writeEntries rest

end

/-- Is the value a table? -/
def Item.isTable : Item → Bool
  | .table _ => true
  | _ => false

/-- A document: plain entries, and then one section for each table. -/
def write (entries : Entries) : String :=
  let plain := entries.filter fun entry => !entry.2.isTable
  let sections := entries.filterMap fun entry =>
    match entry.2 with
    | .table inner => some (entry.1, inner)
    | _ => none
  let lines (es : Entries) := String.join ((writeEntries es).map (· ++ "\n"))
  lines plain ++ String.join (sections.map fun (key, inner) =>
    "\n[" ++ writeKey key ++ "]\n" ++ lines inner)

end Toml
end ScriptPool
