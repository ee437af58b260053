import ScriptPool.Proofs.Interpreter.Running

/-!
# What a reset comes to

A reset ends the scope, restores the pictured tables and runs a collection, in that order.
Finalizers that borrowers have left are called by the collection, so they find the tables restored,
and nobody restores them again.  Where a collection finds no finalizer it changes nothing, and then
a reset is over when the tables are restored.

## What is here

* `World.isSettled`, `World.run_collect` — nothing is left to finalize, and then a collection
  changes nothing.
* `Interpreter.restored`, `Interpreter.reset_ok` — the world that a reset restores, and that **a
  successful reset is one that restores and collects**.
-/

set_option autoImplicit false

namespace ScriptPool

/-! ## Collections

Which tables are out of use is for the collector to say, so whether there is anything to finalize is
read off what it says.  A finalizer can set up the next one, which is why only the case is told
apart in which there is none at all. -/

namespace World

/-- Nothing is left to finalize: no table that a collection would find has a finalizer. -/
def isSettled (w : World) (s : Nat) : Bool :=
  (w.language.finalized s (w.state s)).all fun table =>
    ((w.state s).metafield (.table table) "__gc").isNil

end World

namespace Execution

variable {calls : Calls} {s : Nat} {w : World}

theorem run_finalize {table : Nat}
    (h : ((w.state s).metafield (.table table) "__gc").isNil = true) :
    (finalize calls s table).run.run w = (.ok (), w) := by
  rw [finalize, run_stateOf_bind, GuestValue.eq_nil_of_isNil h]
  rfl

theorem run_finalizeAll {tables : List Nat}
    (h : ∀ table ∈ tables, ((w.state s).metafield (.table table) "__gc").isNil = true) :
    (finalizeAll calls s tables).run.run w = (.ok (), w) := by
  induction tables with
  | nil => rfl
  | cons table rest ih =>
    rw [finalizeAll, run_bind_ok (run_finalize (h table List.mem_cons_self))]
    exact ih fun other hother => h other (List.mem_cons_of_mem _ hother)

end Execution

namespace World

variable {w : World} {s : Nat}

/-- **A collection with nothing to finalize changes nothing.** -/
theorem run_collect (h : w.isSettled s = true) : (collect s).run w = (.ok (), w) := by
  show (finish s (Execution.finalizeAll (callsWithin callDepth) s _)).run w = _
  exact Transition.run_bind_eq (Execution.run_finalizeAll (List.all_eq_true.1 h))

end World

/-! ## Resets -/

namespace Interpreter

variable {i k : Interpreter} {w w' : World}

/-- The world that a reset of an interpreter restores: the scope is over, and the pictured tables
are put back. -/
def restored (i : Interpreter) (w : World) : World :=
  (w.endScope i.state).modifyState i.state i.baseline.restore

theorem run_reset_of_tainted {reason : String} (h : i.tainted = some reason) :
    ∃ e, i.reset.run w = ((.error e, i), w.endScope i.state) := by
  rw [reset, h]
  exact ⟨_, rfl⟩

theorem run_reset_of_untainted (h : i.tainted = none) : i.reset.run w
    = ((match ((World.collect i.state).run (i.restored w)).1 with
      | .error f => (.error (.reset f.message), i)
      | .ok () => (.ok (), { i with wasReset := true })),
      ((World.collect i.state).run (i.restored w)).2) := by
  have hends : (modify fun w => w.endScope i.state : Transition Unit).run w
      = ((), w.endScope i.state) := rfl
  have hrestores : (modify fun w => w.modifyState i.state i.baseline.restore : Transition Unit).run
      (w.endScope i.state) = ((), i.restored w) := rfl
  rw [reset, h, Transition.run_bind_eq hends]
  dsimp only
  rw [Transition.run_bind_eq hrestores]
  rcases hcollect : (World.collect i.state).run (i.restored w) with ⟨r, v⟩
  rw [Transition.run_bind_eq hcollect]
  cases r <;> rfl

/-- **A reset that succeeds restores and collects**, and the interpreter was not tainted.  If there
is nothing to finalize, it does no more than restore. -/
theorem reset_ok (h : i.reset.run w = ((.ok (), k), w')) :
    i.tainted = none ∧ (World.collect i.state).run (i.restored w) = (.ok (), w')
      ∧ ((i.restored w).isSettled i.state = true → w' = i.restored w) := by
  cases htaint : i.tainted with
  | some reason =>
    obtain ⟨e, he⟩ := run_reset_of_tainted (w := w) htaint
    rw [he] at h
    cases h
  | none =>
    rw [run_reset_of_untainted htaint] at h
    rcases hcollect : (World.collect i.state).run (i.restored w) with ⟨_ | ⟨⟩, v⟩
    · rw [hcollect] at h
      cases h
    · rw [hcollect] at h
      cases h
      refine ⟨rfl, rfl, fun hsettled => ?_⟩
      rw [World.run_collect hsettled] at hcollect
      exact (congrArg Prod.snd hcollect).symm

theorem state_restored (hs : i.state < w.states.size) :
    (i.restored w).state i.state = i.baseline.restore (w.state i.state).endScope := by
  rw [restored, World.endScope, World.modifyState_eq, World.modifyState_eq,
    World.state_setState, World.state_setState hs]
  rwa [World.size_setState]

end Interpreter
end ScriptPool
