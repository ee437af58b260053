import ScriptPool.Interpreter.Execute
import ScriptPool.Proofs.Guest.References
import ScriptPool.Proofs.Interpreter.Restore
import ScriptPool.Proofs.Transition

/-!
# What running scripts in an interpreter does

Whatever relation between worlds allows for evaluation and for calls of functions allows for what is
done in an interpreter from outside: running scripts, reading and assigning globals, and asking for
the metatable of strings.

## What is here

* `keeps_finish` — running an execution to its end, with the error made of what it throws.
* `keeps_runScript`, `keeps_readGlobal`, `keeps_assignGlobal`, `keeps_runWith`, `keeps_prepare`,
  `keeps_stringMetatable` — the parts of an interpreter's life.
* `Hosts` — a relation that allows for conversions, for calls, and for scripts under a budget.
* `World.keeps_call`, `Interpreter.keeps_run`, `Interpreter.keeps_execute` — what can be done from
  outside, for a relation that admits conversions and calls.
* `Interpreter.Step`, `Interpreter.History` — an interpreter in use, and what happens besides.
* `Interpreter.History.spec` — **in use, an interpreter stays what it is and references stay good.**
-/

set_option autoImplicit false

namespace ScriptPool

open Transition

/-- A step that follows another need be looked at only for results that the first can have. -/
theorem Transition.Keeps.bind_ensures {R : World → World → Prop} [IsPreorder World R] {α β : Type}
    {t : Transition α} {f : α → Transition β} {post : α → Prop} (ht : Transition.Keeps R t)
    (hpost : Ensures t post) (hf : ∀ a, post a → Transition.Keeps R (f a)) :
    Transition.Keeps R (t >>= f) := fun w => trans_of R (ht w) (hf _ (hpost w) _)

/-! ## Executions from outside -/

section Running

variable {R : World → World → Prop} [IsPreorder World R] {s : Nat} {α : Type}

namespace World

theorem keeps_finish (hc : (callsWithin callDepth).Keep R s) {run : Execution α}
    (h : ScriptPool.Keeps R run) : Transition.Keeps R (finish s run) := by
  refine Transition.Keeps.bind h fun r => ?_
  cases r with
  | ok a => exact Transition.keeps_pure _
  | error thrown =>
    refine Transition.Keeps.bind (Execution.keeps_faultOf hc) fun r => ?_
    cases r with
    | ok fault => exact Transition.keeps_pure _
    | error e => exact Transition.keeps_pure _

section

variable (h : Evaluates R s) (hc : (callsWithin callDepth).Keep R s)

include h hc

theorem keeps_runScript (chunk : String) (script : Script) :
    Transition.Keeps R (runScript s chunk script) := by
  rw [runScript]
  split
  · exact Transition.keeps_pure _
  · exact keeps_finish hc (Execution.keeps_execAll h hc script)

theorem keeps_assignGlobal (name : String) (v : GuestValue) :
    Transition.Keeps R (assignGlobal s name v) :=
  Transition.keeps_get_bind fun w => keeps_finish hc (Execution.keeps_assign h hc) w

omit h in
theorem keeps_readGlobal (name : String) : Transition.Keeps R (readGlobal s name) :=
  Transition.keeps_get_bind fun w => keeps_finish hc (Execution.keeps_index hc) w

omit h in
theorem keeps_stringMetatable : Transition.Keeps R (stringMetatable s) := by
  refine Transition.Keeps.bind (keeps_finish hc ?_) fun found => Transition.keeps_pure _
  refine Execution.keeps_stateOf.bind fun g => (Execution.keeps_index hc).bind fun f => ?_
  split
  · exact (Execution.keeps_callValue hc).bind fun _ => keeps_pure _
  · exact keeps_pure _

end

variable (h : Permits R s)

include h

/-- Starting and ending the budget is a change like any other. -/
theorem keeps_withBudget {body : Nat → Transition (Except GuestFault α)}
    (hbody : Transition.Keeps R (body s)) : Transition.Keeps R (withBudget s body) := by
  have harm : ∀ w : World, R w (w.modifyState s GuestState.arm) := fun w => by
    rw [modifyState_eq]
    exact h.change w _ (.single (.account _ _ _ _ _))
  have hdisarm : ∀ w : World, R w (w.modifyState s GuestState.disarm) := fun w => by
    rw [modifyState_eq]
    exact h.change w _ (.single (.account _ _ _ _ _))
  exact (Transition.keeps_modify harm).bind fun _ => hbody.bind fun _ =>
    (Transition.keeps_modify hdisarm).bind fun _ => Transition.keeps_pure _

theorem keeps_runBudgeted (hc : (callsWithin callDepth).Keep R s) (chunk : String)
    (script : Script) : Transition.Keeps R (runBudgeted s chunk script) :=
  keeps_withBudget h (keeps_runScript h.evaluates hc chunk script)

omit h in
theorem keeps_prepare
    (hrun : ∀ (chunk : String) (script : Script), Transition.Keeps R (runBudgeted s chunk script))
    (script : Option String) : Transition.Keeps R (prepare s script) := by
  cases script with
  | none => exact Transition.keeps_pure _
  | some text =>
    refine Transition.keeps_get_bind fun w => Transition.Keeps.bind (hrun _ _) (fun r => ?_) w
    cases r with
    | ok a => exact Transition.keeps_pure _
    | error f => exact Transition.keeps_pure _

end World

theorem Interpreter.keeps_runWith (i : Interpreter)
    {body : Nat → Transition (Except GuestFault α)}
    (hbody : Transition.Keeps R (World.withBudget i.state body)) :
    Transition.Keeps R (i.runWith body) := by
  refine Transition.Keeps.bind hbody fun r => ?_
  cases r with
  | ok a => exact Transition.keeps_pure _
  | error f => exact Transition.keeps_get_bind fun w => refl_of R w

end Running

/-! ## Interpreters

Whatever is done in an interpreter comes down to conversions, calls and writing to tables.  A
relation between worlds that allows for those allows for everything here, so an invariant is proved
by looking at those few things. -/

section Using

variable {P : Nat → Prop} {R : World → World → Prop} [IsPreorder World R]

section

variable (hR : Serves P R)

include hR

namespace World

/-- Calls from outside. -/
theorem keep_callDepth {s : Nat} (hs : P s) : (callsWithin callDepth).Keep R s :=
  (keeps_callsWithin hR callDepth).1 s hs

theorem keeps_call (f : FunctionValue) (args : List Value) :
    Transition.Keeps R (call f args) := by
  refine Transition.Keeps.bind ((keeps_callsWithin hR callDepth).2 f args) fun r => ?_
  cases r with
  | ok outcome => exact Transition.keeps_pure _
  | error e => exact Transition.keeps_pure _

theorem keeps_callGuest {s : Nat} (hs : P s) (f : GuestValue) (args : List GuestValue) :
    Transition.Keeps R (callGuest s f args) :=
  keeps_finish (keep_callDepth hR hs) (Execution.keeps_callValue (keep_callDepth hR hs))

/-- So is a collection: it calls what it finds to finalize tables. -/
theorem keeps_collect {s : Nat} (hs : P s) : Transition.Keeps R (collect s) :=
  Transition.keeps_get_bind fun w => keeps_finish (keep_callDepth hR hs)
    (Execution.keeps_finalizeAll (hR.evaluate s hs) (keep_callDepth hR hs) _) w

theorem keeps_toValue {s : Nat} (hs : P s) (c : Converter) (v : GuestValue) :
    Transition.Keeps R (toValue c s v) := c.keeps_toValueAt s hR.toHandsOut hs _ _ _

theorem keeps_fromValue {s : Nat} (hs : P s) (c : Converter) (v : Value) :
    Transition.Keeps R (fromValue c s v) := c.keeps_fromValueAt s hR.toTakesIn hs _ _

end World

namespace Interpreter

variable (i : Interpreter) (hi : P i.state)

include hi

theorem keeps_setGlobal (name : String) (v : GuestValue) :
    Transition.Keeps R (i.setGlobal name v) :=
  (World.keeps_assignGlobal (hR.evaluate _ hi) (World.keep_callDepth hR hi) name v).bind
    fun _ => Transition.keeps_pure _

theorem keeps_getGlobal (name : String) : Transition.Keeps R (i.getGlobal name) :=
  (World.keeps_readGlobal (World.keep_callDepth hR hi) name).bind fun _ => Transition.keeps_pure _

theorem keeps_bind (c : Converter) (globals : List (String × Value)) :
    Transition.Keeps R (i.bind c globals) := by
  induction globals with
  | nil => exact Transition.keeps_pure _
  | cons entry rest ih =>
    refine Transition.Keeps.bind (World.keeps_fromValue hR hi c entry.2) fun r => ?_
    cases r with
    | error e => exact Transition.keeps_pure _
    | ok v =>
      refine Transition.Keeps.bind (i.keeps_setGlobal hR hi entry.1 v) fun r => ?_
      cases r with
      | error e => exact Transition.keeps_pure _
      | ok u => exact ih

end Interpreter

end

/-- A relation between worlds allows for what can be done from outside in certain states:
conversions and calls, and scripts with the budget started for them. -/
structure Hosts (P : Nat → Prop) (R : World → World → Prop) : Prop extends Serves P R where
  budgeted : ∀ s, P s → ∀ (chunk : String) (script : Script),
    Transition.Keeps R (World.runBudgeted s chunk script)

theorem Admits.hosts (hR : Admits P R) : Hosts P R where
  toServes := hR.serves
  budgeted s hs :=
    World.keeps_runBudgeted (hR.evaluate s hs) (World.keep_callDepth hR.serves hs)

namespace Interpreter

variable (hR : Hosts P R) (i : Interpreter) (hi : P i.state)

include hR hi

theorem keeps_run (script : Script) : Transition.Keeps R (i.run script) :=
  i.keeps_runWith (hR.budgeted _ hi _ script)

theorem keeps_execute (c : Converter) (script : Script) (globals : List (String × Value)) :
    Transition.Keeps R (i.execute c script globals) := by
  refine Transition.Keeps.bind (i.keeps_bind hR.toServes hi c globals) fun r => ?_
  cases r with
  | error e => exact Transition.keeps_pure _
  | ok u =>
    refine Transition.Keeps.bind_ensures (i.keeps_run hR hi script) (i.ensures_run script)
      fun r hr => ?_
    rcases r with ⟨_ | results, j⟩
    · exact Transition.keeps_pure _
    · -- it is still the same state
      obtain ⟨tainted, rfl⟩ := hr
      exact Transition.Keeps.bind (World.keeps_toValue hR.toServes hi c _)
        fun _ => Transition.keeps_pure _

end Interpreter

end Using

/-- A relation between worlds allows for ending the scopes of certain states. -/
def World.AllowsEnds (P : Nat → Prop) (R : World → World → Prop) : Prop :=
  ∀ (s : Nat) (w : World), P s → R w (w.endScope s)

namespace Interpreter

/-- Restoring tables is writing to them. -/
theorem moves_restore (b : Baseline) : ∀ g : GuestState, g.Moves (b.restore g) := by
  induction b with
  | nil => exact fun g => .refl
  | cons image rest ih => exact fun g => .head (.modifyTable _ _) (ih _)

theorem changes_restore (b : Baseline) (g : GuestState) : g.Changes (b.restore g) :=
  (moves_restore b g).changes

theorem leadsTo_endScope (w : World) (s : Nat) : w.LeadsTo (w.endScope s) := by
  rw [World.endScope, World.modifyState_eq]
  exact World.leadsTo_setState ⟨Nat.le_refl _, Nat.le_refl _, Nat.le_refl _, fun h => h⟩

/-- A reset ends the scope of the state, and then it writes to tables and calls finalizers. -/
theorem keeps_reset (i : Interpreter) {P : Nat → Prop} {R : World → World → Prop}
    [IsPreorder World R] (hends : World.AllowsEnds P R) (hR : Serves P R)
    (hi : P i.state) : Transition.Keeps R i.reset := by
  refine (Transition.keeps_modify fun w => hends i.state w hi).bind fun _ => ?_
  split
  · exact Transition.keeps_pure _
  · refine (Transition.keeps_modify fun w => ?_).bind fun _ =>
      Transition.Keeps.bind (World.keeps_collect hR hi) fun r => ?_
    · rw [World.modifyState_eq]
      exact (hR.evaluate _ hi).move w _ (moves_restore _ _)
    · cases r with
      | error f => exact Transition.keeps_pure _
      | ok u => exact Transition.keeps_pure _

theorem leadsTo_reset (i : Interpreter) : Transition.Keeps World.LeadsTo i.reset :=
  i.keeps_reset (P := Everywhere) (fun s w _ => leadsTo_endScope w s)
    World.admits_leadsTo.serves trivial

/-! ## Interpreters in use -/

/-- Something is done with an interpreter, or besides. -/
inductive Step : Interpreter → World → Interpreter → World → Prop where
  | run (i : Interpreter) (w : World) (script : Script) :
      Step i w ((i.run script).run w).1.2 ((i.run script).run w).2
  | execute (i : Interpreter) (w : World) (c : Converter) (script : Script)
      (globals : List (String × Value)) :
      Step i w ((i.execute c script globals).run w).1.2 ((i.execute c script globals).run w).2
  | setGlobal (i : Interpreter) (w : World) (name : String) (v : GuestValue) :
      Step i w i ((i.setGlobal name v).run w).2
  | getGlobal (i : Interpreter) (w : World) (name : String) :
      Step i w i ((i.getGlobal name).run w).2
  | reset (i : Interpreter) (w : World) : Step i w (i.reset.run w).1.2 (i.reset.run w).2
  /-- It is lent or handed back. -/
  | booked (i : Interpreter) (w : World) (useCount lastUsed : Nat) :
      Step i w { i with useCount, lastUsed } w
  /-- Something else is done with the world: values are converted, functions that were handed out
  are called, other interpreters are made and used. -/
  | meanwhile (i : Interpreter) {w w' : World} (h : w.LeadsTo w') : Step i w i w'

/-- What becomes of an interpreter, one step after the other. -/
inductive History (i : Interpreter) (u : World) : Interpreter → World → Prop where
  | new : History i u i u
  | step {j k : Interpreter} {v w : World} (h : History i u j v) (s : Step j v k w) :
      History i u k w

variable {i j k : Interpreter} {u v w : World}

/-- A step leaves the interpreter what it is, and references good. -/
theorem Step.spec (h : Step i v j w) :
    j.state = i.state ∧ j.baseline = i.baseline ∧ v.LeadsTo w := by
  cases h with
  | run script =>
    obtain ⟨tainted, hj⟩ := i.ensures_run script v
    rw [hj]
    exact ⟨rfl, rfl, i.keeps_run World.admits_leadsTo.hosts trivial script v⟩
  | execute c script globals =>
    obtain ⟨tainted, hj⟩ := i.ensures_execute c script globals v
    rw [hj]
    exact ⟨rfl, rfl, i.keeps_execute World.admits_leadsTo.hosts trivial c script globals v⟩
  | setGlobal name value =>
    exact ⟨rfl, rfl, i.keeps_setGlobal World.admits_leadsTo.serves trivial name value v⟩
  | getGlobal name => exact ⟨rfl, rfl, i.keeps_getGlobal World.admits_leadsTo.serves trivial name v⟩
  | reset =>
    obtain ⟨hstate, hbaseline⟩ := (i.ensures_reset v).same
    exact ⟨hstate, hbaseline, i.leadsTo_reset v⟩
  | booked => exact ⟨rfl, rfl, refl_of _ v⟩
  | meanwhile h => exact ⟨rfl, rfl, h⟩

/-- Running a script is all that happens. -/
theorem History.of_run {script : Script} {r : Except InterpreterError (List GuestValue)}
    (h : (i.run script).run u = ((r, j), w)) : i.History u j w := by
  have hstep := Step.run i u script
  rw [h] at hstep
  exact .step .new hstep

/-- **In use, an interpreter stays what it is and references stay good.** -/
theorem History.spec (h : History i u j w) :
    j.state = i.state ∧ j.baseline = i.baseline ∧ u.LeadsTo w := by
  induction h with
  | new => exact ⟨rfl, rfl, refl_of _ u⟩
  | step _ s ih =>
    obtain ⟨hstate, hbaseline, hleads⟩ := s.spec
    exact ⟨hstate.trans ih.1, hbaseline.trans ih.2.1, trans_of World.LeadsTo ih.2.2 hleads⟩

end Interpreter

end ScriptPool
