import ScriptPool.Decimal.Layout
import ScriptPool.Error
import ScriptPool.Json.Basic
import ScriptPool.Value.Basic

/-!
# Values as JSON

Data maps onto JSON and back.  An integral number below `2^53` in magnitude is written without a
fraction, so `-0.0` becomes `0`; an error becomes the object with its message under `error`.
Functions, channels, custom values and numbers that are not finite have no JSON form, and one of
them anywhere makes the whole conversion fail; the first one met is the one reported.
-/

set_option autoImplicit false

namespace ScriptPool
namespace Value

/-- The JSON form of a number. -/
def numberToJson (x : Float) : Except ConvertError Json :=
  match Decimal.integer? x with
  | some n =>
      if n.natAbs < 2 ^ 53 then .ok (.integer n) else .ok (.float x)
  | none =>
      if x.isFinite then .ok (.float x)
      else .error (.unsupported ("non-finite number " ++ Decimal.Layout.plain.write x))

mutual

/-- The JSON form of a value. -/
def toJson : Value → Except ConvertError Json
  | .nil => .ok .null
  | .bool b => .ok (.bool b)
  | .number x => numberToJson x
  | .string s => .ok (.string s)
  | .array items => (itemsToJson items).map .array
  | .object fields => (fieldsToJson fields).map .object
  | .error e => .ok (.object [("error", .string e.message)])
  | .function _ => .error (.unsupported Kind.function.name)
  | .channel _ => .error (.unsupported Kind.channel.name)
  | .custom _ => .error (.unsupported Kind.custom.name)

/-- The JSON forms of array elements. -/
def itemsToJson : List Value → Except ConvertError (List Json)
  | [] => .ok []
  | v :: rest => do
      let j ← v.toJson
      let js ← itemsToJson rest
      .ok (j :: js)

/-- The JSON forms of fields. -/
def fieldsToJson : List (String × Value) → Except ConvertError (List (String × Json))
  | [] => .ok []
  | (name, v) :: rest => do
      let j ← v.toJson
      let js ← fieldsToJson rest
      .ok ((name, j) :: js)

end

mutual

/-- The value of a JSON document. -/
def ofJson : Json → Value
  | .null => .nil
  | .bool b => .bool b
  | .integer n => .number (Float.ofInt n)
  | .float x => .number x
  | .string s => .string s
  | .array items => .array (itemsOfJson items)
  | .object members => .object (fieldsOfJson members)

/-- The values of JSON elements. -/
def itemsOfJson : List Json → List Value
  | [] => []
  | j :: rest => ofJson j :: itemsOfJson rest

/-- The fields of a JSON object, sorted, the later of two with one name winning. -/
def fieldsOfJson : List (String × Json) → List (String × Value)
  | [] => []
  | (name, j) :: rest =>
      let fields := fieldsOfJson rest
      if Fields.contains fields name then fields else Fields.insert name (ofJson j) fields

end

end Value
end ScriptPool
