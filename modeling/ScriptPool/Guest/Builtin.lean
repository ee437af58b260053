import ScriptPool.Guest.Access

/-!
# Functions of the standard library

What scripts rely on when they look after themselves: types and texts of values, metatables, raw
access, raising and catching errors, coroutines, and the operations on strings that need no
patterns.  What any other member of the library does when it is called is up to the `Language`.

A coroutine runs on a thread of its own, where nothing is charged.  It is run to its end: one that
yields stops in the middle, and that is as if it never ended.

A message of `error` names the place of the call.  A function of the library that is called by
another one, rather than by a script, has no such place.
-/

set_option autoImplicit false

namespace ScriptPool

/-- A byte as a capital letter, if it is a small one. -/
def upperByte (b : UInt8) : UInt8 := if 97 ≤ b && b ≤ 122 then b - 32 else b

/-- A byte as a small letter, if it is a capital one. -/
def lowerByte (b : UInt8) : UInt8 := if 65 ≤ b && b ≤ 90 then b + 32 else b

/-- `n` copies of a run of bytes. -/
def repeatBytes (bytes : ByteArray) (n : Nat) : ByteArray :=
  Nat.rec ByteArray.empty (fun _ sofar => sofar ++ bytes) n

/-- The longest string that `string.rep` makes. -/
def longestRepetition : Nat := 2 ^ 30

namespace Execution

variable {α : Type}

/-- Rejects an argument. -/
def complain (chunk : Option String) (place : Nat) (name reason : String) : Execution α :=
  fail chunk ("bad argument #" ++ toString place ++ " to '" ++ name ++ "' (" ++ reason ++ ")")

/-- The type of an argument, for a complaint. -/
def argumentType (args : List GuestValue) (place : Nat) : String :=
  match args[place - 1]? with
  | some v => v.scriptType
  | none => "no value"

/-- Any argument, provided there is one. -/
def anyArgument (chunk : Option String) (name : String) (args : List GuestValue) (place : Nat) :
    Execution GuestValue :=
  match args[place - 1]? with
  | some v => pure v
  | none => complain chunk place name "value expected"

/-- An argument that must be a table. -/
def tableArgument (chunk : Option String) (name : String) (args : List GuestValue) (place : Nat) :
    Execution Nat :=
  match args[place - 1]? with
  | some (.table id) => pure id
  | _ => complain chunk place name ("table expected, got " ++ argumentType args place)

/-- An argument that must be a string or a number, as a string. -/
def textArgument (chunk : Option String) (name : String) (args : List GuestValue) (place : Nat) :
    Execution ByteArray :=
  match (args[place - 1]?).bind GuestValue.scalarText? with
  | some bytes => pure bytes
  | none => complain chunk place name ("string expected, got " ++ argumentType args place)

/-- An argument that must be an integer. -/
def integerArgument (chunk : Option String) (name : String) (args : List GuestValue)
    (place : Nat) : Execution Int :=
  match (args[place - 1]?).bind GuestValue.number? with
  | some (.integer n) => pure n.toInt
  | some (.float x) =>
      match Decimal.integer? x with
      | some n => pure n
      | none => complain chunk place name "number has no integer representation"
  | _ => complain chunk place name ("number expected, got " ++ argumentType args place)

variable (calls : Calls)

/-- The metatable of a value as scripts get to see it. -/
def visibleMetatable (g : GuestState) (v : GuestValue) : GuestValue :=
  match g.metatable? v with
  | some m =>
      let shield := (g.table m).field "__metatable"
      if shield.isNil then .table m else shield
  | none =>
      match v with
      | .object (.userdata _) => .boolean false
      | _ => .nil

/-- Sets the metatable of a table. -/
def setMetatable (chunk : Option String) (s : Nat) (args : List GuestValue) :
    Execution (List GuestValue) := do
  let id ← tableArgument chunk "setmetatable" args 1
  let metatable : Option Nat ← match args[1]? with
    | some GuestValue.nil => pure none
    | some (.table m) => pure (some m)
    | _ => complain chunk 2 "setmetatable" "nil or table expected"
  let g ← stateOf s
  if (g.metafield (.table id) "__metatable").isNil then
    onState s fun g => ((), g.setMetatable id metatable)
    pure [.table id]
  else fail chunk "cannot change a protected metatable"

/-- The length of a table or string, without metamethods. -/
def rawLength (g : GuestState) : GuestValue → Option Nat
  | .string bytes => some bytes.size
  | .table id =>
      let t := g.table id
      some ((List.range t.entries.length).takeWhile
        fun i => !(t.find (.ofInt (i + 1 : Nat))).isNil).length
  | _ => none

/-! ## Coroutines -/

/-- Makes a coroutine of the first argument, which must be a function. -/
def createCoroutine (chunk : Option String) (s : Nat) (name : String) (args : List GuestValue) :
    Execution Nat :=
  match args.head? with
  | some (.function body) => onState s fun g => g.newThread body
  | _ => complain chunk 1 name ("function expected, got " ++ argumentType args 1)

/-- Runs a coroutine to its end.  What it throws is a result. -/
def resume (s thread : Nat) (args : List GuestValue) :
    Execution (Except GuestValue (List GuestValue)) := do
  match (← stateOf s).threads[thread]? with
  | some ⟨body, .fresh⟩ =>
      onState s fun g => ((), g.setStatus thread .active)
      let outcome ← guarded (aside s .coroutine (calls.guest none s body args))
      onState s fun g => ((), g.setStatus thread .dead)
      pure outcome
  | some ⟨_, .dead⟩ => pure (.error (.ofString "cannot resume dead coroutine"))
  | _ => pure (.error (.ofString "cannot resume non-suspended coroutine"))

/-- Calls a function that resumes a coroutine.  A text that the coroutine throws gets the place of
the call in front. -/
def callResumption (chunk : Option String) (s thread : Nat) (args : List GuestValue) :
    Execution (List GuestValue) := do
  match ← resume calls s thread args, chunk with
  | .ok results, _ => pure results
  | .error (.string bytes), some place => throw (.string ((place ++ ":1: ").toUTF8 ++ bytes))
  | .error thrown, _ => throw thrown

end Execution

/-! ## Functions that are not written out -/

open Execution in
/-- Does what a function of the library asks for. -/
def LibraryAction.run (calls : Calls) (s : Nat) : LibraryAction → Execution (List GuestValue)
  | .finish results => pure results
  | .fail thrown => throw thrown
  | .look resume => do (resume (← stateOf s)).run calls s
  | .set table key value resume => do
      onState s fun g => ((), g.rawSet table key value)
      resume.run calls s
  | .setMetatable table metatable resume => do
      onState s fun g => ((), g.setMetatable table metatable)
      resume.run calls s
  | .newTable t resume => do (resume (← onState s fun g => g.newTable t)).run calls s
  | .newFunction f _ resume => do (resume (← onState s fun g => g.newFunction f)).run calls s
  | .call kind f args resume => do
      let call := callValue calls none s .unknown f args
      let outcome ← guarded (match kind with
        | none => call
        | some kind => aside s kind call)
      (resume outcome).run calls s

namespace Execution

variable (calls : Calls)

/-! ## The library -/

/-- Calls a member of the library. -/
def builtin (chunk : Option String) (s : Nat) (name : String) (args : List GuestValue) :
    Execution (List GuestValue) := do
  match name with
  | "type" =>
      let v ← anyArgument chunk name args 1
      pure [.ofString v.scriptType]
  | "tostring" =>
      let v ← anyArgument chunk name args 1
      let text ← textOf calls s v
      pure [.string text]
  | "tonumber" =>
      let v ← anyArgument chunk name args 1
      pure [v.number?.getD .nil]
  | "getmetatable" =>
      let v ← anyArgument chunk name args 1
      pure [visibleMetatable (← stateOf s) v]
  | "setmetatable" => setMetatable chunk s args
  | "rawget" =>
      let id ← tableArgument chunk name args 1
      pure [(← stateOf s).rawGet id (args.getD 1 .nil)]
  | "rawset" =>
      let id ← tableArgument chunk name args 1
      let key := args.getD 1 .nil
      if key.toKey?.isNone then
        fail chunk (if key.isNil then "table index is nil" else "table index is NaN")
      onState s fun g => ((), g.rawSet id key (args.getD 2 .nil))
      pure [.table id]
  | "rawequal" =>
      let a ← anyArgument chunk name args 1
      let b ← anyArgument chunk name args 2
      pure [.boolean (a.rawEqual b)]
  | "rawlen" =>
      match rawLength (← stateOf s) (args.getD 0 .nil) with
      | some n => pure [.ofInt n]
      | none => complain chunk 1 name "table or string expected"
  | "error" =>
      let level := match args[1]? with
        | some v => v.number?.getD (.ofInt 1)
        | none => .ofInt 1
      match args.getD 0 .nil, chunk with
      | .string bytes, some place =>
          if level.rawEqual (.ofInt 1) then
            throw (.string ((place ++ ":1: ").toUTF8 ++ bytes))
          else throw (.string bytes)
      | v, _ => throw v
  | "assert" =>
      let v ← anyArgument chunk name args 1
      if v.isTruthy then pure args
      else
        match args[1]? with
        | some message => throw message
        | none => fail none "assertion failed!"
  | "pcall" =>
      let f ← anyArgument chunk name args 1
      match ← guarded (callValue calls none s .unknown f (args.drop 1)) with
      | .ok results => pure (.boolean true :: results)
      | .error thrown => pure [.boolean false, thrown]
  | "xpcall" =>
      let f ← anyArgument chunk name args 1
      let handler ← anyArgument chunk name args 2
      match ← guarded (callValue calls none s .unknown f (args.drop 2)) with
      | .ok results => pure (.boolean true :: results)
      | .error thrown =>
          let results ← callValue calls none s .unknown handler [thrown]
          pure (.boolean false :: results)
  | "string.len" =>
      let bytes ← textArgument chunk "len" args 1
      pure [.ofInt bytes.size]
  | "string.upper" =>
      let bytes ← textArgument chunk "upper" args 1
      pure [.string ⟨bytes.data.map upperByte⟩]
  | "string.lower" =>
      let bytes ← textArgument chunk "lower" args 1
      pure [.string ⟨bytes.data.map lowerByte⟩]
  | "string.reverse" =>
      let bytes ← textArgument chunk "reverse" args 1
      pure [.string ⟨bytes.data.reverse⟩]
  | "string.rep" =>
      let bytes ← textArgument chunk "rep" args 1
      let n ← integerArgument chunk "rep" args 2
      let g ← stateOf s
      let size := bytes.size * n.toNat
      if longestRepetition < size ∨ (0 < g.memoryLimit ∧ g.memoryLimit < size) then raise .memory
      else pure [.string (if bytes.isEmpty then bytes else repeatBytes bytes n.toNat)]
  | "coroutine.create" =>
      let thread ← createCoroutine chunk s "create" args
      pure [.object (.thread thread)]
  | "coroutine.wrap" =>
      let thread ← createCoroutine chunk s "wrap" args
      onState s fun g =>
        let (id, g) := g.newFunction (.resumption thread)
        ([.function id], g)
  | "coroutine.resume" =>
      match args.head? with
      | some (.object (.thread thread)) =>
          match ← resume calls s thread (args.drop 1) with
          | .ok results => pure (.boolean true :: results)
          | .error thrown => pure [.boolean false, thrown]
      | _ => complain chunk 1 "resume" ("coroutine expected, got " ++ argumentType args 1)
  | "coroutine.yield" =>
      let g ← stateOf s
      if g.threads.any fun c => c.status = .active then raise .endless
      else fail none "attempt to yield from outside a coroutine"
  | _ => ((← get).language.library name chunk args).run calls s

end Execution
end ScriptPool
