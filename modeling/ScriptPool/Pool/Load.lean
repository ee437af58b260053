import ScriptPool.Duration

/-!
# The load of interpreters

A table with an entry for every interpreter that has been on loan: how often, for how long in all
and on average, and since when if it is out at the moment.  Moments are nanoseconds on the clock of
the pool.

A borrower gets the interpreter with the fewest loans among the first few idle ones.
-/

set_option autoImplicit false

namespace ScriptPool

/-- The load of one interpreter. -/
structure LoadInfo where
  /-- Loans, the present one included. -/
  count : Nat := 0
  /-- Time of the loans that have ended. -/
  total : Duration := .zero
  /-- When the present loan began. -/
  startedAt : Option Nat := none
  average : Duration := .zero
  deriving Repr, DecidableEq, Inhabited

namespace LoadInfo

/-- A loan begins. -/
def start (info : LoadInfo) (now : Nat) : LoadInfo :=
  { info with count := info.count + 1, startedAt := some now }

/-- The largest number of loans that an average is taken over: a duration is divided by a number of
32 bits.  Averages after more loans are too long. -/
def divisorBound : Nat := 2 ^ 32 - 1

/-- The present loan ends. -/
def stop (info : LoadInfo) (now : Nat) : LoadInfo :=
  let total : Duration := match info.startedAt with
    | some start => ⟨info.total.nanos + (now - start)⟩
    | none => info.total
  let average : Duration :=
    if info.count = 0 then info.average else ⟨total.nanos / min info.count divisorBound⟩
  { info with total, average, startedAt := none }

end LoadInfo

/-- The loads of interpreters, by their numbers. -/
abbrev LoadTable := List (Nat × LoadInfo)

/-- How many idle interpreters are compared. -/
def loadSample : Nat := 3

namespace LoadTable

/-- The load of an interpreter, if it has been on loan. -/
def get? (t : LoadTable) (id : Nat) : Option LoadInfo :=
  (t.find? fun entry => entry.1 == id).map (·.2)

/-- The number of loans of an interpreter. -/
def count (t : LoadTable) (id : Nat) : Nat := ((t.get? id).map (·.count)).getD 0

/-- Changes the entry of an interpreter, if there is one. -/
def modify (t : LoadTable) (id : Nat) (f : LoadInfo → LoadInfo) : LoadTable :=
  t.map fun entry => if entry.1 == id then (id, f entry.2) else entry

/-- Notes that a loan begins. -/
def begin (t : LoadTable) (id now : Nat) : LoadTable :=
  match t.get? id with
  | some _ => t.modify id fun info => info.start now
  | none => t ++ [(id, ({} : LoadInfo).start now)]

/-- Notes that a loan ends. -/
def finish (t : LoadTable) (id now : Nat) : LoadTable := t.modify id fun info => info.stop now

/-- Forgets an interpreter. -/
def remove (t : LoadTable) (id : Nat) : LoadTable := t.filter fun entry => entry.1 != id

/-- The first place of the least among some numbers, counted from `i`, where `best` is the least
before them and its place. -/
def leastFrom (i : Nat) (best : Nat × Nat) : List Nat → Nat
  | [] => best.2
  | n :: rest => leastFrom (i + 1) (if n < best.1 then (n, i) else best) rest

/-- The place of the interpreter to lend out: the first with the fewest loans among the sample. -/
def leastLoaded? (t : LoadTable) (ids : List Nat) : Option Nat :=
  match (ids.take loadSample).map t.count with
  | [] => none
  | n :: rest => some (leastFrom 1 (n, 0) rest)

end LoadTable
end ScriptPool
