import ScriptPool.Value.Text
import ScriptPool.World

/-!
# Stock host functions

A few functions of the host side to offer to scripts: some that compute on their arguments, some
that call back, and some that go wrong in each of the ways in which a host function can.
-/

set_option autoImplicit false

namespace ScriptPool

/-- A stock function of the host. -/
inductive StockFunction where
  /-- The array of the arguments. -/
  | echo
  /-- The first argument. -/
  | first
  /-- The number of the arguments. -/
  | count
  /-- The sum of the arguments that are numbers. -/
  | sum
  /-- The texts of the arguments, joined by hyphens. -/
  | concat
  /-- The kinds of the arguments. -/
  | kinds
  /-- Always the same value. -/
  | constant (v : Value)
  /-- How often it has been called. -/
  | counter
  /-- Fails with a message. -/
  | fail (message : String)
  /-- Fails because of a conversion. -/
  | failConversion
  /-- Gives an error value. -/
  | error (message : String)
  /-- Breaks down with a message. -/
  | panic (message : String)
  /-- Breaks down without a message. -/
  | panicSilently
  /-- An empty array inside others, so many in all. -/
  | nest (depth : Nat)
  /-- Calls its first argument with the others. -/
  | call
  /-- Gives nothing. -/
  | nil

namespace StockFunction

/-- The sum of the numbers among some values, from left to right; of none it is `-0.0`, to which
adding a number gives that number. -/
def total (args : List Value) : Float :=
  args.foldl (fun sum v =>
    match v with
    | .number x => sum + x
    | _ => sum) (-0.0)

/-- What the function does when it has been called `calls` times before. -/
def action (calls : Nat) (args : List Value) : StockFunction → HostAction
  | .echo => .ok (.array args)
  | .first => .ok (args.headD .nil)
  | .count => .ok (.ofInt args.length)
  | .sum => .ok (.number (total args))
  | .concat => .ok (.string ("-".intercalate (args.map Value.text)))
  | .kinds => .ok (.array (args.map fun v => .string v.kind.name))
  | .constant v => .ok v
  | .counter => .ok (.ofInt (calls + 1 : Nat))
  | .fail message => .fail (.failed message)
  | .failConversion => .fail (.conversion .circular)
  | .error message => .ok (.ofMessage message)
  | .panic message => .finish (.panicked (some message))
  | .panicSilently => .finish (.panicked none)
  | .nest depth => .ok (Value.inArrays (depth - 1) (.array []))
  | .call =>
      match args with
      | .function f :: rest => .invoke f rest fun result => .finish (.returned result)
      | _ => .fail (.failed "not a function")
  | .nil => .ok .nil

/-- The function as a function of the host. -/
def hostFunction (f : StockFunction) : HostFunction where
  respond calls args := f.action calls.length args

end StockFunction
end ScriptPool
