import ScriptPool.Decimal.Layout
import ScriptPool.Text.Quoted
import ScriptPool.Text.Outline
import ScriptPool.Value.Basic

/-!
# Values as text

`Value.text` is what scripts and reports show: strings stand for themselves and nothing is quoted,
so different values can look alike.  `Value.outline` is what diagnostics show: every constructor is
named and strings are quoted.
-/

set_option autoImplicit false

namespace ScriptPool
namespace Value

mutual

/-- The plain text of a value. -/
def text : Value → String
  | .nil => "nil"
  | .bool b => if b then "true" else "false"
  | .number x => Decimal.Layout.plain.write x
  | .string s => s
  | .array items => "[" ++ ", ".intercalate (textItems items) ++ "]"
  | .object fields => "\x7b" ++ ", ".intercalate (textFields fields) ++ "\x7d"
  | .function f => "function: " ++ f.name
  | .error e => "error: " ++ e.message
  | .channel c => "channel: " ++ c.id
  | .custom c => "custom: " ++ c.tag

/-- The plain texts of array elements. -/
def textItems : List Value → List String
  | [] => []
  | v :: rest => v.text :: textItems rest

/-- The plain texts of fields. -/
def textFields : List (String × Value) → List String
  | [] => []
  | (name, v) :: rest => (name ++ ": " ++ v.text) :: textFields rest

end

/-- Numbers in diagnostics: integral ones end in `.0`, and the very small and the very large ones
have an exponent. -/
def diagnosticNumber : Decimal.Layout := ⟨some (-4, 16), true, false, "NaN", "inf"⟩

mutual

/-- The diagnostic form of a value. -/
def outline : Value → Text.Outline
  | .nil => .leaf "Nil"
  | .bool b => .tuple "Bool" [.leaf (if b then "true" else "false")]
  | .number x => .tuple "Number" [.leaf (diagnosticNumber.write x)]
  | .string s => .tuple "String" [.leaf (Text.quote s)]
  | .array items => .tuple "Array" [.list (outlineItems items)]
  | .object fields => .tuple "Object" [.map (outlineFields fields)]
  | .function f => .partialRecord "FunctionValue" [("name", .leaf (Text.quote f.name))]
  | .error e =>
      .record "ErrorValue" [("message", .leaf (Text.quote e.message)),
        ("has_source", .leaf (if e.source.isSome then "true" else "false"))]
  | .channel c => .partialRecord "ChannelHandle" [("id", .leaf (Text.quote c.id))]
  | .custom c => .partialRecord "CustomValue" [("type_tag", .leaf (Text.quote c.tag))]

/-- The diagnostic forms of array elements. -/
def outlineItems : List Value → List Text.Outline
  | [] => []
  | v :: rest => v.outline :: outlineItems rest

/-- The diagnostic forms of fields. -/
def outlineFields : List (String × Value) → List (String × Text.Outline)
  | [] => []
  | (name, v) :: rest => (Text.quote name, v.outline) :: outlineFields rest

end

end Value
end ScriptPool
