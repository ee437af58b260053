/-!
# Outlines

A diagnostic text has a structure: named tuples, lists, maps and records.  An `Outline` is that
structure, and it has two renderings: `Outline.line` on one line, and `Outline.block` with one part
a line and four blanks of indentation a level.  The two show the same parts in the same order, and
an outline without parts looks the same in both.
-/

set_option autoImplicit false

namespace ScriptPool
namespace Text

/-- The structure of a diagnostic text. -/
inductive Outline where
  /-- A text without parts. -/
  | leaf (text : String)
  /-- `Name(part, …)` -/
  | tuple (name : String) (parts : List Outline)
  /-- `[part, …]` -/
  | list (parts : List Outline)
  /-- Braces around `key: part, …`. -/
  | map (entries : List (String × Outline))
  /-- A name in front of braces around `field: part, …`. -/
  | record (name : String) (fields : List (String × Outline))
  /-- The same with `..` for the fields that are left out. -/
  | partialRecord (name : String) (fields : List (String × Outline))

namespace Outline

mutual

/-- The outline on one line. -/
def line : Outline → String
  | .leaf text => text
  | .tuple name parts => name ++ "(" ++ ", ".intercalate (lines parts) ++ ")"
  | .list parts => "[" ++ ", ".intercalate (lines parts) ++ "]"
  | .map entries => "\x7b" ++ ", ".intercalate (entryLines entries) ++ "\x7d"
  | .record name fields => name ++ " \x7b " ++ ", ".intercalate (entryLines fields) ++ " \x7d"
  | .partialRecord name fields =>
      name ++ " \x7b " ++ String.join ((entryLines fields).map (· ++ ", ")) ++ ".. \x7d"

/-- Each part on one line. -/
def lines : List Outline → List String
  | [] => []
  | part :: rest => part.line :: lines rest

/-- Each named part on one line. -/
def entryLines : List (String × Outline) → List String
  | [] => []
  | (key, part) :: rest => (key ++ ": " ++ part.line) :: entryLines rest

end

/-- Parts between delimiters, one a line at the given indentation. -/
def delimited (indent : String) (left right : String) (parts : List String) : String :=
  if parts.isEmpty then left ++ right
  else left ++ "\n" ++ String.join (parts.map fun part => indent ++ "    " ++ part ++ "\n")
    ++ indent ++ right

mutual

/-- The outline with one part a line; `indent` is the blank text in front of its own last line. -/
def blockAt (indent : String) : Outline → String
  | .leaf text => text
  | .tuple name parts => delimited indent (name ++ "(") ")" (blocks (indent ++ "    ") parts)
  | .list parts => delimited indent "[" "]" (blocks (indent ++ "    ") parts)
  | .map entries => delimited indent "\x7b" "\x7d" (entryBlocks (indent ++ "    ") entries)
  | .record name fields =>
      delimited indent (name ++ " \x7b") "\x7d" (entryBlocks (indent ++ "    ") fields)
  | .partialRecord name fields =>
      delimited indent (name ++ " \x7b") "\x7d" (entryBlocks (indent ++ "    ") fields ++ [".."])

/-- Each part as a block with a comma after it. -/
def blocks (indent : String) : List Outline → List String
  | [] => []
  | part :: rest => (part.blockAt indent ++ ",") :: blocks indent rest

/-- Each named part as a block with a comma after it. -/
def entryBlocks (indent : String) : List (String × Outline) → List String
  | [] => []
  | (key, part) :: rest => (key ++ ": " ++ part.blockAt indent ++ ",") :: entryBlocks indent rest

end

/-- The outline over several lines. -/
def block (o : Outline) : String := o.blockAt ""

end Outline
end Text
end ScriptPool
