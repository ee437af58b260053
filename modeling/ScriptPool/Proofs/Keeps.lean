import Mathlib.Order.Defs.Unbundled
import ScriptPool.Guest.Execution

/-!
# What programs do to the world

Executions, conversions and transitions all run in a world and leave another one.  `Keeps R` says of
one that the worlds before and after are related by `R`, whichever they are and whether or not it
fails.  If `R` is reflexive and transitive, a program has that property if its steps have it, and
the rules below take a program apart into them.
-/

set_option autoImplicit false

namespace ScriptPool

variable {R : World → World → Prop} {α β ε : Type}

/-- The worlds before and after a transition are related. -/
def Transition.Keeps (R : World → World → Prop) (t : StateM World α) : Prop := ∀ w, R w (t.run w).2

/-- The worlds before and after a program that may fail are related. -/
def Keeps (R : World → World → Prop) (t : ExceptT ε (StateM World) α) : Prop :=
  Transition.Keeps R t.run

/-! ## Transitions -/

namespace Transition

variable [IsPreorder World R] {t : StateM World α} {f : α → StateM World β}

theorem keeps_pure (a : α) : Keeps R (pure a) := fun w => refl_of R w

theorem Keeps.bind (ht : Keeps R t) (hf : ∀ a, Keeps R (f a)) : Keeps R (t >>= f) := fun w =>
  trans_of R (ht w) (hf (t.run w).1 (t.run w).2)

omit [IsPreorder World R] in
/-- Looking at the world does not change it. -/
theorem keeps_get_bind {f : World → StateM World β} (h : ∀ w, R w ((f w).run w).2) :
    Keeps R (get >>= f) := h

omit [IsPreorder World R] in
theorem keeps_modify {f : World → World} (h : ∀ w, R w (f w)) :
    Keeps R (modify f : StateM World Unit) := h

end Transition

/-! ## Programs that may fail

A failure ends a program early, but what was done up to there has been done.  So what a program
keeps, it keeps whether or not it fails, and catching a failure keeps it too. -/

section

variable [IsPreorder World R] {t : ExceptT ε (StateM World) α}

theorem keeps_pure (a : α) : Keeps R (pure a : ExceptT ε (StateM World) α) := fun w => refl_of R w

theorem keeps_throw (e : ε) : Keeps R (throw e : ExceptT ε (StateM World) α) := fun w => refl_of R w

/-- What follows a failure is not run. -/
theorem keeps_throw_bind (e : ε) (f : α → ExceptT ε (StateM World) β) : Keeps R (throw e >>= f) :=
  fun w => refl_of R w

theorem Keeps.bind {f : α → ExceptT ε (StateM World) β} (ht : Keeps R t) (hf : ∀ a, Keeps R (f a)) :
    Keeps R (t >>= f) := by
  have hall : ∀ r, Transition.Keeps R (ExceptT.bindCont f r) := fun r => by
    cases r with
    | ok a => exact hf a
    | error e => exact Transition.keeps_pure _
  exact Transition.Keeps.bind (f := ExceptT.bindCont f) ht hall

theorem Keeps.tryCatch {handle : ε → ExceptT ε (StateM World) α} (ht : Keeps R t)
    (hh : ∀ e, Keeps R (handle e)) : Keeps R (tryCatch t handle) := by
  show Transition.Keeps R (ExceptT.tryCatch t handle).run
  rw [ExceptT.tryCatch]
  refine Transition.Keeps.bind ht fun r => ?_
  cases r with
  | ok a => exact Transition.keeps_pure _
  | error e => exact hh e

omit [IsPreorder World R] in
/-- Looking at the world does not change it. -/
theorem keeps_get_bind {f : World → ExceptT ε (StateM World) β} (h : ∀ w, R w ((f w).run.run w).2) :
    Keeps R (get >>= f) := h

omit [IsPreorder World R] in
theorem Keeps.ite {e : ExceptT ε (StateM World) α} {c : Prop} [Decidable c] (ht : Keeps R t)
    (he : Keeps R e) : Keeps R (if c then t else e) := by
  split
  · exact ht
  · exact he

theorem keeps_liftM (r : Except ε α) : Keeps R (liftM r : ExceptT ε (StateM World) α) := by
  cases r with
  | ok a => exact keeps_pure a
  | error e => exact keeps_throw e

end

/-- What is run and caught, or run inside another kind of program, keeps what it keeps. -/
theorem Execution.keeps_convert {c : Conversion α} (h : Keeps R c) : Keeps R (convert c) := h

/-! ## Step by step

What a program does in one world is followed along its binds: a step that succeeds is followed by
the rest, in the world that it leaves, and one that fails is not. -/

theorem Transition.run_bind_eq {t : StateM World α} {f : α → StateM World β} {w w' : World} {a : α}
    (h : t.run w = (a, w')) : (t >>= f).run w = (f a).run w' := by
  rw [StateT.run_bind, h]
  rfl

namespace Execution

open Transition

variable {w w' : World} {thrown : GuestValue} {a : α}

theorem run_bind_ok {t : Execution α} {f : α → Execution β} (h : t.run.run w = (.ok a, w')) :
    (t >>= f).run.run w = (f a).run.run w' :=
  run_bind_eq (f := ExceptT.bindCont f) h

theorem run_bind_error {t : Execution α} {f : α → Execution β}
    (h : t.run.run w = (.error thrown, w')) : (t >>= f).run.run w = (.error thrown, w') :=
  run_bind_eq (f := ExceptT.bindCont f) h

/-- What is caught is handled in the world that the failure left. -/
theorem run_tryCatch_error {t : Execution α} {handle : GuestValue → Execution α}
    (h : t.run.run w = (.error thrown, w')) :
    (tryCatch t handle).run.run w = (handle thrown).run.run w' := by
  show (ExceptT.tryCatch t handle).run.run w = _
  exact run_bind_eq h

theorem run_tryCatch_ok {t : Execution α} {handle : GuestValue → Execution α}
    (h : t.run.run w = (.ok a, w')) : (tryCatch t handle).run.run w = (.ok a, w') := by
  show (ExceptT.tryCatch t handle).run.run w = _
  exact run_bind_eq h

theorem run_guarded_ok {run : Execution α} (h : run.run.run w = (.ok a, w')) :
    (guarded run).run.run w = (.ok (.ok a), w') := by
  rw [guarded]
  exact run_tryCatch_ok (run_bind_ok h)

theorem run_guarded_error {run : Execution α} (h : run.run.run w = (.error thrown, w'))
    (hne : thrown ≠ .fault .endless) :
    (guarded run).run.run w = (.ok (.error thrown), w') := by
  rw [guarded, run_tryCatch_error (run_bind_error h)]
  split
  · exact absurd rfl hne
  · rfl

end Execution
end ScriptPool
