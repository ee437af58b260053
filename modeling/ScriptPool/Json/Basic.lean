import ScriptPool.Decimal.Layout

/-!
# JSON documents

The document type, and its two written forms: compact, and indented by two blanks a level.  Objects
keep their members in the order given; the rest of the library only builds them sorted by name.
-/

set_option autoImplicit false

namespace ScriptPool

/-- A JSON document.  Numbers written without fraction and exponent are kept apart from floats. -/
inductive Json where
  | null
  | bool (b : Bool)
  | integer (n : Int)
  | float (x : Float)
  | string (s : String)
  | array (items : List Json)
  | object (members : List (String × Json))

namespace Json

instance : Inhabited Json := ⟨.null⟩

/-! ## Access -/

/-- The member of an object under a name.  A member that is `null` counts as absent. -/
def get? (j : Json) (name : String) : Option Json :=
  match j with
  | .object members =>
      match members.find? fun entry => entry.1 == name with
      | some (_, .null) => none
      | some (_, v) => some v
      | none => none
  | _ => none

/-- The member of an object under a name, or `null`. -/
def get (j : Json) (name : String) : Json := (j.get? name).getD .null

/-- Does an object have a member of that name, be it `null`? -/
def has (j : Json) (name : String) : Bool :=
  match j with
  | .object members => members.any fun entry => entry.1 == name
  | _ => false

/-- The elements of an array. -/
def items : Json → List Json
  | .array items => items
  | _ => []

/-- The members of an object. -/
def members : Json → List (String × Json)
  | .object members => members
  | _ => []

/-- The text of a string. -/
def text? : Json → Option String
  | .string s => some s
  | _ => none

/-- The text of a string, or nothing. -/
def text (j : Json) : String := j.text?.getD ""

/-- Is this `true`? -/
def isTrue : Json → Bool
  | .bool b => b
  | _ => false

/-! ## Writing -/

/-- Floats in JSON: integral ones end in `.0`, and an exponent has a sign. -/
def numberLayout : Decimal.Layout := ⟨some (-5, 16), true, true, "null", "null"⟩

/-- A character inside a JSON string: only quotes, backslashes and controls are escaped. -/
def escapeChar (c : Char) : String :=
  if c = '"' then "\\\""
  else if c = '\\' then "\\\\"
  else if c = '\n' then "\\n"
  else if c = '\r' then "\\r"
  else if c = '\t' then "\\t"
  else if c.toNat = 8 then "\\b"
  else if c.toNat = 12 then "\\f"
  else if c.toNat < 0x20 then
    "\\u00" ++ (if c.toNat < 16 then "0" else "") ++ String.ofList (Nat.toDigits 16 c.toNat)
  else c.toString

/-- A JSON string literal. -/
def quote (s : String) : String := "\"" ++ String.join (s.toList.map escapeChar) ++ "\""

mutual

/-- The document without blanks. -/
def compact : Json → String
  | .null => "null"
  | .bool b => if b then "true" else "false"
  | .integer n => toString n
  | .float x => numberLayout.write x
  | .string s => quote s
  | .array items => "[" ++ ",".intercalate (compactItems items) ++ "]"
  | .object members => "\x7b" ++ ",".intercalate (compactMembers members) ++ "\x7d"

/-- Each element without blanks. -/
def compactItems : List Json → List String
  | [] => []
  | item :: rest => item.compact :: compactItems rest

/-- Each member without blanks. -/
def compactMembers : List (String × Json) → List String
  | [] => []
  | (name, item) :: rest => (quote name ++ ":" ++ item.compact) :: compactMembers rest

end

/-- Parts between brackets, one a line. -/
def bracketed (indent : String) (left right : String) (parts : List String) : String :=
  if parts.isEmpty then left ++ right
  else left ++ "\n" ++ ",\n".intercalate (parts.map fun part => indent ++ "  " ++ part)
    ++ "\n" ++ indent ++ right

mutual

/-- The document over several lines, `indent` being the blanks in front of its last line. -/
def prettyAt (indent : String) : Json → String
  | .array items => bracketed indent "[" "]" (prettyItems (indent ++ "  ") items)
  | .object members => bracketed indent "\x7b" "\x7d" (prettyMembers (indent ++ "  ") members)
  | .null => "null"
  | .bool b => if b then "true" else "false"
  | .integer n => toString n
  | .float x => numberLayout.write x
  | .string s => quote s

/-- Each element over several lines. -/
def prettyItems (indent : String) : List Json → List String
  | [] => []
  | item :: rest => item.prettyAt indent :: prettyItems indent rest

/-- Each member over several lines. -/
def prettyMembers (indent : String) : List (String × Json) → List String
  | [] => []
  | (name, item) :: rest =>
      (quote name ++ ": " ++ item.prettyAt indent) :: prettyMembers indent rest

end

/-- The document over several lines. -/
def pretty (j : Json) : String := j.prettyAt ""

end Json
end ScriptPool
