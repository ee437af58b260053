import ScriptPool.Budget
import ScriptPool.Guest.Heap
import ScriptPool.Script.Basic

/-!
# Guest states

A guest state is one isolated instance of the scripting language: a heap of tables, functions,
userdata and coroutines, the table of globals, and the budget that executions are charged to.
References into the heap are indices, and nothing is ever removed from it, so a reference stays good
for as long as the state exists.

The *epoch* of a state counts how often it changed hands.  Functions that were handed to the host
remember the epoch they were handed out in.
-/

set_option autoImplicit false

namespace ScriptPool

/-- How values of one host program cross: how deep they may be nested, and the codecs for custom
values, by type tag and in the order of the tags.  Codecs are named by their place in a `World`. -/
structure Converter where
  maxDepth : Nat := 32
  codecs : List (String × Nat) := []
  deriving Inhabited

/-- What a function of the guest does. -/
inductive Closure where
  /-- A function of the standard library, by its path from the globals. -/
  | library (name : String)
  | routine (r : Routine)
  /-- Runs a script; `chunk` is where it was written. -/
  | script (chunk : String) (body : Script)
  /-- Calls a function of the host side; arguments and result cross by a converter. -/
  | trampoline (target : FunctionValue) (converter : Converter)
  /-- Resumes a coroutine. -/
  | resumption (thread : Nat)

instance : Inhabited Closure := ⟨.library ""⟩

/-- How far a coroutine has come.  None is ever seen in the middle: what stops there is not followed
up. -/
inductive CoroutineStatus where
  | fresh
  | active
  | dead
  deriving DecidableEq

/-- A coroutine: the function that it runs, and how far it has come. -/
structure Coroutine where
  body : Nat
  status : CoroutineStatus := .fresh

/-- What userdata holds. -/
inductive Userdata where
  /-- A canonical value that has no form of its own in the guest. -/
  | carrier (v : Value)
  /-- An object of someone else. -/
  | foreign
  deriving Inhabited

/-- What is done about the instructions that are executed in a state. -/
inductive Hook where
  /-- They are not counted. -/
  | absent
  /-- They are counted, and whenever an interval of them is over, the budget is charged for it. -/
  | charging
  /-- They are counted, but an interval that is over goes by without a charge. -/
  | muted
  deriving DecidableEq, Inhabited

/-- Something that is executed on the side, where nothing is charged. -/
inductive Aside where
  /-- It has a thread of its own. -/
  | coroutine
  /-- It comes in between, on the thread that is there. -/
  | finalizer
  deriving DecidableEq

/-- What becomes of the hook while something is executed on the side. -/
def Hook.aside : Hook → Aside → Hook
  | .absent, _ => .absent
  | _, .coroutine => .absent
  | _, .finalizer => .muted

/-- One isolated instance of the scripting language. -/
structure GuestState where
  tables : Array GuestTable := #[]
  functions : Array Closure := #[]
  userdata : Array Userdata := #[]
  threads : Array Coroutine := #[]
  /-- The table of globals. -/
  globals : Nat := 0
  /-- The metatable that all strings share. -/
  stringMeta : Option Nat := none
  /-- The metatable that marks empty arrays, once there is one. -/
  arrayMarker : Option Nat := none
  /-- How often the state changed hands. -/
  epoch : Nat := 0
  budget : Budget := {}
  /-- How executions are charged to the budget. -/
  hook : Hook := .absent
  /-- Instructions that were counted since an interval was over. -/
  pending : Nat := 0
  /-- Instructions that are charged to nobody: those that were not counted, and those of intervals
  that went by without a charge. -/
  uncharged : Nat := 0
  /-- Nanoseconds that executions have taken so far. -/
  clock : Nat := 0
  /-- Bytes that the heap may take; `0` is no limit. -/
  memoryLimit : Nat := 0
  deriving Inhabited

namespace GuestState

/-- The table of a reference. -/
def table (s : GuestState) (id : Nat) : GuestTable := s.tables.getD id {}

/-- Changes one table. -/
def modifyTable (s : GuestState) (id : Nat) (f : GuestTable → GuestTable) : GuestState :=
  { s with tables := s.tables.modify id f }

/-- Adds a table to the heap. -/
def newTable (s : GuestState) (t : GuestTable := {}) : Nat × GuestState :=
  (s.tables.size, { s with tables := s.tables.push t })

/-- Adds a function to the heap. -/
def newFunction (s : GuestState) (f : Closure) : Nat × GuestState :=
  (s.functions.size, { s with functions := s.functions.push f })

/-- Adds userdata to the heap. -/
def newUserdata (s : GuestState) (u : Userdata) : GuestValue × GuestState :=
  (.object (.userdata s.userdata.size), { s with userdata := s.userdata.push u })

/-- Makes a coroutine of a function. -/
def newThread (s : GuestState) (body : Nat) : Nat × GuestState :=
  (s.threads.size, { s with threads := s.threads.push { body } })

/-- Makes a coroutine of a function that does nothing. -/
def idleThread (s : GuestState) : GuestValue × GuestState :=
  let (body, s) := s.newFunction (.routine .nothing)
  let (thread, s) := s.newThread body
  (.object (.thread thread), s)

/-- Notes how far a coroutine has come. -/
def setStatus (s : GuestState) (thread : Nat) (status : CoroutineStatus) : GuestState :=
  { s with threads := s.threads.modify thread fun c => { c with status } }

/-- Raw read access. -/
def rawGet (s : GuestState) (id : Nat) (key : GuestValue) : GuestValue := (s.table id).get key

/-- Raw write access. -/
def rawSet (s : GuestState) (id : Nat) (key value : GuestValue) : GuestState :=
  s.modifyTable id fun t => t.set key value

/-- Gives a table a metatable, or takes it away. -/
def setMetatable (s : GuestState) (id : Nat) (metatable : Option Nat) : GuestState :=
  s.modifyTable id fun t => { t with metatable }

/-- The canonical value that userdata carries, if it carries one. -/
def carried? (s : GuestState) (o : GuestObject) : Option Value :=
  match o with
  | .userdata id =>
      match s.userdata[id]? with
      | some (.carrier v) => some v
      | _ => none
  | _ => none

/-- The metatable of a value. -/
def metatable? (s : GuestState) : GuestValue → Option Nat
  | .table id => (s.table id).metatable
  | .string _ => s.stringMeta
  | _ => none

/-- The state has changed hands: what was handed out before is no longer good. -/
def endScope (s : GuestState) : GuestState := { s with epoch := s.epoch + 1 }

/-- The metatable that marks empty arrays, made at the first need. -/
def arrayMarkerTable (s : GuestState) : Nat × GuestState :=
  match s.arrayMarker with
  | some id => (id, s)
  | none =>
      let (id, s) := s.newTable { entries := [(.ofString "__shape", .ofString "array")] }
      (id, { s with arrayMarker := some id })

/-! ## One state after another -/

/-- The marker of empty arrays is in the heap, if it has been made. -/
def HasMarker (g : GuestState) : Prop := ∀ id, g.arrayMarker = some id → id < g.tables.size

/-- A state can become another by being used: whatever is done to what is in the heap, references
into it stay good. -/
structure LeadsTo (g g' : GuestState) : Prop where
  tables : g.tables.size ≤ g'.tables.size
  functions : g.functions.size ≤ g'.functions.size
  userdata : g.userdata.size ≤ g'.userdata.size
  marker : g.HasMarker → g'.HasMarker

theorem LeadsTo.refl (g : GuestState) : g.LeadsTo g :=
  ⟨Nat.le_refl _, Nat.le_refl _, Nat.le_refl _, id⟩

theorem LeadsTo.trans {g g' g'' : GuestState} (h : g.LeadsTo g') (h' : g'.LeadsTo g'') :
    g.LeadsTo g'' :=
  ⟨Nat.le_trans h.tables h'.tables, Nat.le_trans h.functions h'.functions,
    Nat.le_trans h.userdata h'.userdata, fun hm => h'.marker (h.marker hm)⟩

theorem leadsTo_newTable (g : GuestState) (t : GuestTable) : g.LeadsTo (g.newTable t).2 := by
  have hsize : g.tables.size ≤ (g.tables.push t).size := by
    rw [Array.size_push]
    exact Nat.le_succ _
  exact ⟨hsize, Nat.le_refl _, Nat.le_refl _, fun h id hid => Nat.lt_of_lt_of_le (h id hid) hsize⟩

end GuestState
end ScriptPool
