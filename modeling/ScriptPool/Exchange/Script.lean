import ScriptPool.Exchange.Number
import ScriptPool.Guest.Language

/-!
# Scripts as documents

Scripts are written as JSON documents: a chunk is an array of statements, a statement is an array
that begins with its name, and an expression is a scalar or an object with one telling member.  For
instance `[["set", ["x"], 1], ["return", {"get": ["x"]}]]` assigns a global and gives it back.

A text that is not in this form stands for a chunk that cannot be loaded.
-/

set_option autoImplicit false

namespace ScriptPool
namespace Exchange

/-- How deeply the reading of a chunk can descend.  JSON bounds the nesting of its documents, and
one level of a document takes at most three steps. -/
def scriptNesting : Nat := 3 * Json.nestingLimit

/-- A constant. -/
def literal? : Json → Option Literal
  | .null => some .nil
  | .bool b => some (.boolean b)
  | .integer n => some (.integer (Int64.ofInt n))
  | .float x => some (.float x)
  | .string s => some (.string s.toUTF8)
  | .object [("int", .string s)] => (decimalInteger? s).map fun n => .integer (Int64.ofInt n)
  | .object [("int", .integer n)] => some (.integer (Int64.ofInt n))
  | .object [("float", x)] => (readNumber? x).map .float
  | .object [("bytes", .string s)] => (hexBytes? s).map .string
  | _ => none

/-- A path of keys. -/
def path? : Json → Option (List Literal)
  | .array keys => keys.mapM literal?
  | _ => none

/-- The stock function of a name. -/
def routine? (name : String) : Option Routine :=
  (names.find? fun entry => entry.1 == name).map (·.2)
where
  /-- All names. -/
  names : List (String × Routine) :=
    [("id", .identity), ("none", .nothing), ("multi", .several), ("nargs", .count),
      ("mul", .multiply), ("types", .types), ("fail", .fail), ("apply", .apply),
      ("all", .results), ("pcall", .guarded), ("cycle", .cycle), ("bytes", .bytes),
      ("nest", .nest), ("set_leak", .setLeak), ("get_leak", .getLeak), ("co", .coroutine),
      ("fields", .properties), ("pair", .pair)]

mutual

/-- An expression. -/
def expr? : Nat → Json → Option Expr
  | 0, _ => none
  | depth + 1, j =>
      match literal? j with
      | some l => some (.literal l)
      | none =>
          match j with
          | .object members => compound? depth members
          | _ => none

/-- An expression that is not a constant. -/
def compound? : Nat → List (String × Json) → Option Expr
  | 0, _ => none
  | depth + 1, members =>
      let member (name : String) : Option Json :=
        (members.find? fun entry => entry.1 == name).map (·.2)
      let args : Option (List Expr) :=
        match member "args" with
        | some (.array items) => items.mapM (expr? depth)
        | some _ => none
        | none => some []
      match member "get", member "table", member "call", member "all" with
      | some path, _, _, _ => (path? path).map .get
      | _, some (.array entries), _, _ => (entries.mapM (keyValue? depth)).map .table
      | _, _, some f, _ => do return .call (← expr? depth f) (← args)
      | _, _, _, some f => do return .results (← expr? depth f) (← args)
      | _, _, _, _ =>
          match member "method", member "index", member "key" with
          | some receiver, _, some (.string name) => do
              return .method (← expr? depth receiver) name (← args)
          | _, some e, some key => do return .index (← expr? depth e) (← expr? depth key)
          | _, _, _ =>
              match members with
              | [("type", e)] => (expr? depth e).map .typeOf
              | [("tostring", e)] => (expr? depth e).map .textOf
              | [("meta", e)] => (expr? depth e).map .metatableOf
              | [("fn", .string name)] => (routine? name).map .routine
              | [("const_fn", e)] => (expr? depth e).map .constant
              | [("pcall", body)] => (script? depth body).map .guarded
              | _ => none

/-- An entry of a table constructor. -/
def keyValue? : Nat → Json → Option (Expr × Expr)
  | depth + 1, .array [key, value] => do return (← expr? depth key, ← expr? depth value)
  | _, _ => none

/-- A statement. -/
def stmt? : Nat → Json → Option Stmt
  | depth + 1, .array (.string name :: parts) =>
      match name, parts with
      | "set", [path, e] => do return .set (← path? path) (← expr? depth e)
      | "setfield", [e, key, value] => do
          return .setField (← expr? depth e) (← expr? depth key) (← expr? depth value)
      | "setmeta", [e, metatable] => do
          return .setMetatable (← expr? depth e) (← expr? depth metatable)
      | "do", [e] => (expr? depth e).map .eval
      | "return", es => (es.mapM (expr? depth)).map .return
      | "error", [e] => (expr? depth e).map .fail
      | "error0", [e] => (expr? depth e).map .failPlain
      | "loop", [] => some .loop
      | "count", [.integer n] => some (.count n.toNat)
      | "hog", [] => some .hog
      | "syntax", [] => some .malformed
      | _, _ => none
  | _, _ => none

/-- A chunk. -/
def script? : Nat → Json → Option Script
  | depth + 1, .array statements => statements.mapM (stmt? depth)
  | _, _ => none

end

end Exchange

namespace Script

/-- The chunk that a document stands for. -/
def ofJson? (j : Json) : Option Script := Exchange.script? Exchange.scriptNesting j

/-- The chunk that a text stands for.  Blank text is the empty chunk. -/
def ofText (text : String) : Script :=
  if text.toList.all Json.isSpace then []
  else ((Json.parse? text).bind ofJson?).getD [.malformed]

end Script

/-- The language of guests whose scripts are written as documents. -/
def Language.ofDocuments : Language := { read := Script.ofText }

end ScriptPool
