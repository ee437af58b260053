/-!
# Scripts

Scripts are trees: a chunk is a list of statements, and statements contain expressions.  The trees
have just what sharing interpreters between borrowers is about: scripts assign and read along paths
of keys from the globals, build tables and functions, call what they find, change metatables, fail,
catch failures, and use up instructions and memory.

Names of variables appear in the messages of failures, so expressions keep how a value was reached.
-/

set_option autoImplicit false

namespace ScriptPool

/-- A constant of a script. -/
inductive Literal where
  | nil
  | boolean (b : Bool)
  | integer (n : Int64)
  | float (x : Float)
  | string (bytes : ByteArray)

/-- The stock of small functions that scripts can make. -/
inductive Routine where
  /-- Gives back its arguments. -/
  | identity
  /-- Gives nothing. -/
  | nothing
  /-- Gives `1`, `2` and `3`. -/
  | several
  /-- Gives the number of its arguments. -/
  | count
  /-- Gives the product of its arguments, and a second result. -/
  | multiply
  /-- Gives the type names of its arguments. -/
  | types
  /-- Fails with its argument. -/
  | fail
  /-- Calls its first argument with the others. -/
  | apply
  /-- Calls its first argument with the others, and gives the number of results and the first two.
  -/
  | results
  /-- Calls its first argument with the others, and says whether that succeeded. -/
  | guarded
  /-- Gives a table that contains itself. -/
  | cycle
  /-- Gives a string that is not text. -/
  | bytes
  /-- Gives `true` inside as many arrays as its argument says. -/
  | nest
  /-- Stores its argument in a global. -/
  | setLeak
  /-- Gives what `setLeak` stored. -/
  | getLeak
  /-- Gives a new coroutine. -/
  | coroutine
  /-- Gives the readable properties of a carried value. -/
  | properties
  /-- Gives a table of its two arguments. -/
  | pair
  deriving Repr, DecidableEq

mutual

/-- An expression. -/
inductive Expr where
  | literal (l : Literal)
  /-- A path of keys from the globals. -/
  | get (path : List Literal)
  | table (entries : List (Expr × Expr))
  /-- The first result of a call. -/
  | call (callee : Expr) (args : List Expr)
  /-- The number of results of a call and the first two, in a table. -/
  | results (callee : Expr) (args : List Expr)
  /-- The first result of a call of a method. -/
  | method (receiver : Expr) (name : String) (args : List Expr)
  | index (e key : Expr)
  /-- The global function `type`, applied. -/
  | typeOf (e : Expr)
  /-- The global function `tostring`, applied. -/
  | textOf (e : Expr)
  /-- The global function `getmetatable`, applied. -/
  | metatableOf (e : Expr)
  /-- A fresh function of the stock. -/
  | routine (r : Routine)
  /-- A fresh function that evaluates an expression. -/
  | constant (e : Expr)
  /-- Does a chunk run without failing?  Uses the global function `pcall`. -/
  | guarded (body : List Stmt)

/-- A statement. -/
inductive Stmt where
  /-- Assigns along a path of keys from the globals. -/
  | set (path : List Literal) (e : Expr)
  | setField (e key value : Expr)
  /-- Uses the global function `setmetatable`. -/
  | setMetatable (e metatable : Expr)
  | eval (e : Expr)
  | return (results : List Expr)
  /-- Fails with a value; uses the global function `error`, which adds the position to a string. -/
  | fail (e : Expr)
  /-- Fails with a value as it is. -/
  | failPlain (e : Expr)
  /-- Never ends. -/
  | loop
  /-- Counts up to a number. -/
  | count (n : Nat)
  /-- Takes up a gigabyte of memory. -/
  | hog
  /-- Is not a statement at all; a chunk that contains it cannot be loaded. -/
  | malformed

end

/-- A chunk of statements. -/
abbrev Script := List Stmt

/-! ## Chunks that cannot be loaded

A chunk is read as a whole before any of it runs, so one malformed statement anywhere, also in the
body of a function that is never called, keeps it from running. -/

mutual

/-- Does an expression contain something that is not a statement? -/
def Expr.isMalformed : Expr → Bool
  | .literal _ | .get _ | .routine _ => false
  | .table entries => entriesMalformed entries
  | .call f args | .results f args | .method f _ args => f.isMalformed || anyMalformed args
  | .index e key => e.isMalformed || key.isMalformed
  | .typeOf e | .textOf e | .metatableOf e | .constant e => e.isMalformed
  | .guarded body => bodyMalformed body

/-- Does one of several expressions? -/
def anyMalformed : List Expr → Bool
  | [] => false
  | e :: rest => e.isMalformed || anyMalformed rest

/-- Does a key or value of a table constructor? -/
def entriesMalformed : List (Expr × Expr) → Bool
  | [] => false
  | (k, v) :: rest => k.isMalformed || v.isMalformed || entriesMalformed rest

/-- Does a statement? -/
def Stmt.isMalformed : Stmt → Bool
  | .set _ e | .eval e | .fail e | .failPlain e => e.isMalformed
  | .setField e k v => e.isMalformed || k.isMalformed || v.isMalformed
  | .setMetatable e m => e.isMalformed || m.isMalformed
  | .return es => anyMalformed es
  | .loop | .count _ | .hog => false
  | .malformed => true

/-- Does a chunk? -/
def bodyMalformed : List Stmt → Bool
  | [] => false
  | s :: rest => s.isMalformed || bodyMalformed rest

end

end ScriptPool
