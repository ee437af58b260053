import ScriptPool.Guest.Builtin

/-!
# The stock of routines

Routines are small functions that scripts can make at will.  They were written in a chunk of their
own, named `guest`, which is where their errors are located.
-/

set_option autoImplicit false

namespace ScriptPool

/-- The chunk that routines are written in. -/
def routineChunk : String := "guest"

namespace GuestValue

/-- The name of a type, with the subtypes of numbers apart. -/
def numericType : GuestValue → String
  | .integer _ => "integer"
  | .float _ => "float"
  | v => v.scriptType

/-- The product of two numbers; integers wrap around. -/
def times : GuestValue → GuestValue → GuestValue
  | .integer a, .integer b => .integer (a * b)
  | .integer a, .float b => .float (Float.ofInt a.toInt * b)
  | .float a, .integer b => .float (a * Float.ofInt b.toInt)
  | .float a, .float b => .float (a * b)
  | _, _ => .nil

end GuestValue

namespace Execution

/-- A new table. -/
def newTable (s : Nat) (t : GuestTable) : Execution GuestValue :=
  onState s fun g =>
    let (id, g) := g.newTable t
    (.table id, g)

/-- `v` inside `n` arrays. -/
def wrapTimes (s : Nat) (v : GuestValue) : Nat → Execution GuestValue
  | 0 => pure v
  | n + 1 => do wrapTimes s (← newTable s (.ofSequence [v])) n

variable (calls : Calls)

/-- Calls the first of some arguments with the others. -/
def callFirst (s : Nat) (args : List GuestValue) : Execution (List GuestValue) :=
  callValue calls (some routineChunk) s (.parameter "f") (args.getD 0 .nil) (args.drop 1)

/-- Calls a routine. -/
def routine (s : Nat) (r : Routine) (args : List GuestValue) : Execution (List GuestValue) := do
  let chunk := some routineChunk
  pay s (2 + args.length)
  match r with
  | .identity => pure args
  | .nothing => pure []
  | .several => pure [.ofInt 1, .ofInt 2, .ofInt 3]
  | .count => pure [.ofInt args.length]
  | .multiply =>
      let a := args.getD 0 .nil
      let b := args.getD 1 .nil
      match a.number?, b.number? with
      | some x, some y => pure [x.times y, .ofString "ignored"]
      | none, _ => blame chunk "perform arithmetic on" a (.parameter "a")
      | _, none => blame chunk "perform arithmetic on" b (.parameter "b")
  | .types => return [← newTable s (.ofSequence (args.map fun v => .ofString v.numericType))]
  | .fail => throw (args.getD 0 .nil)
  | .apply => callFirst calls s args
  | .results =>
      let results ← callFirst calls s args
      let fields := [("n", GuestValue.ofInt results.length), ("v1", results.getD 0 .nil),
        ("v2", results.getD 1 .nil)]
      return [← newTable s (.ofFields fields)]
  | .guarded =>
      let outcome ← guarded
        (callValue calls none s .unknown (args.getD 0 .nil) (args.drop 1))
      pure [.boolean outcome.isOk]
  | .cycle =>
      let t ← onState s fun g =>
        let (id, g) := g.newTable
        (.table id, g.rawSet id (.ofString "me") (.table id))
      pure [t]
  | .bytes => pure [.string ⟨#[0xff, 0xfe]⟩]
  | .nest =>
      match (args.getD 0 .nil).number? with
      | some (.integer n) => return [← wrapTimes s (.boolean true) (max n.toInt.toNat 1)]
      | some (.float x) =>
          return [← wrapTimes s (.boolean true) (max ((Decimal.truncated? x).getD 1).toNat 1)]
      | _ => fail chunk "'for' limit must be a number"
  | .setLeak =>
      let g ← stateOf s
      assign calls chunk s .unknown (.table g.globals) (.ofString "leaked") (args.getD 0 .nil)
      pure []
  | .getLeak =>
      let g ← stateOf s
      return [← index calls chunk s .unknown (.table g.globals) (.ofString "leaked")]
  | .coroutine => return [← onState s GuestState.idleThread]
  | .properties =>
      let u := args.getD 0 .nil
      let kind ← index calls chunk s (.parameter "u") u (.ofString "kind")
      let message ← index calls chunk s (.parameter "u") u (.ofString "message")
      let tag ← index calls chunk s (.parameter "u") u (.ofString "tag")
      let text ← textOf calls s u
      return [← newTable s (.ofFields
        [("kind", kind), ("message", message), ("tag", tag), ("text", .string text)])]
  | .pair => return [← newTable s (.ofSequence [args.getD 0 .nil, args.getD 1 .nil])]

end Execution
end ScriptPool
