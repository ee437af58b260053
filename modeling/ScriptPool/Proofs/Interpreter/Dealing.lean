import ScriptPool.Proofs.Pool.Moves

/-!
# What borrowers do

A borrower runs scripts and uses the guest state in between in whatever way he likes: he reads and
assigns globals, converts values, calls functions that were handed to him.  What he does next may
depend on what came of the last thing.  `Dealing` is a borrower in this sense, and it is all that a
borrower can do who does not break down in the middle of a run.

## What is here

* `Dealing.use` — what it comes to for an interpreter.
* `Dealing.Aborts` — that one of the runs ends in a failure that leaves the state unusable: a limit
  was hit on the way, whether or not that is what the run failed with, or memory ran out.
* `Dealing.isSome_tainted` — **an interpreter that is tainted stays so**, whatever else is run on
  it, and `Dealing.isSome_tainted_of_aborts` — **one of whose runs was aborted is tainted**.
* `Interpreter.Ready` — what a new interpreter is like.
-/

set_option autoImplicit false

namespace ScriptPool

open Transition

/-! ## New interpreters -/

/-- An interpreter is ready to be lent for the first time. -/
structure Interpreter.Ready (i : Interpreter) : Prop where
  untainted : i.tainted = none
  resting : i.executing = false
  unused : i.useCount = 0

/-- New interpreters are ready. -/
theorem World.ready_newInterpreter (limits : ResourceLimits) (id now : Nat) :
    Ensures (newInterpreter limits id now) fun r => ∀ i, r = .ok i → i.Ready := by
  have hfail : ∀ f : GuestFault, Ensures
      (pure (.error (.creation f.message)) : Transition (Except InterpreterError Interpreter))
      fun r => ∀ i, r = .ok i → i.Ready := fun f => ensures_pure fun i hi => by cases hi
  rw [newInterpreter]
  refine (ensures_true _).bind fun r _ => ?_
  cases r with
  | error f => exact hfail f
  | ok state =>
    refine (ensures_true _).bind fun r _ => ?_
    cases r with
    | error f => exact hfail f
    | ok u =>
      refine (ensures_true _).bind fun r _ => ?_
      cases r with
      | error f => exact hfail f
      | ok baseline =>
        refine ensures_pure fun i hi => ?_
        cases hi
        exact ⟨rfl, rfl, rfl⟩

/-! ## Borrowers -/

/-- What a borrower does with an interpreter. -/
inductive Dealing : Type 1 where
  | done
  /-- Something is done under the budget, such as running a script. -/
  | run {α : Type} (body : Nat → Transition (Except GuestFault α))
      (next : Except InterpreterError α → Dealing)
  /-- Something else is done with the guest state. -/
  | access {α : Type} (act : Interpreter → Transition α) (next : α → Dealing)

namespace Dealing

/-- What a borrower does, and the interpreter afterwards. -/
def use : Dealing → Interpreter → Transition (Unit × Interpreter)
  | done, i => pure ((), i)
  | run body next, i => do
      let (r, i) ← i.runWith body
      (next r).use i
  | access act next, i => do
      let a ← act i
      (next a).use i

/-- Does one of the runs end in a failure that leaves the state unusable? -/
def Aborts : Dealing → Interpreter → World → Prop
  | done, _, _ => False
  | run body next, i, w =>
      (∃ f, ((World.withBudget i.state body).run w).1 = .error f
        ∧ Interpreter.isAbort (((World.withBudget i.state body).run w).2.state i.state) f = true)
      ∨ (next ((i.runWith body).run w).1.1).Aborts ((i.runWith body).run w).1.2
          ((i.runWith body).run w).2
  | access act next, i, w => (next ((act i).run w).1).Aborts i ((act i).run w).2

/-- Executing a script with values of the host. -/
def execute (c : Converter) (script : Script) (globals : List (String × Value)) : Dealing :=
  access (fun i => i.bind c globals) fun
    | .error _ => done
    | .ok () => run (fun s => World.runScript s scriptChunk script) fun
      | .error _ => done
      | .ok results => access (fun i => World.toValue c i.state (results.headD .nil)) fun _ => done

theorem use_execute (c : Converter) (script : Script) (globals : List (String × Value)) :
    (execute c script globals).use
      = Pool.droppingResult fun i => i.execute c script globals := by
  funext i
  rw [execute, use, Pool.droppingResult, Interpreter.execute, bind_assoc]
  refine bind_congr fun bound => ?_
  cases bound with
  | error e => rfl
  | ok u =>
    dsimp only
    rw [use, bind_assoc]
    refine bind_congr fun r => ?_
    rcases r with ⟨_ | results, j⟩ <;> rfl

/-! ### Tainted interpreters

Nothing that a borrower does takes the taint off an interpreter, so one aborted run is enough,
wherever in his dealing it was. -/

/-- What a borrower leaves behind is the same interpreter, and its use and its resets are recorded
as before.  If it was tainted, it still is. -/
theorem ensures_use (d : Dealing) : ∀ i : Interpreter, Ensures (d.use i) fun r =>
    ∃ tainted, r.2 = { i with tainted } ∧ (i.tainted.isSome = true → tainted.isSome = true) := by
  induction d with
  | done => exact fun i => ensures_pure ⟨i.tainted, rfl, id⟩
  | run body next ih =>
    intro i
    refine (i.ensures_runWith body).bind fun r hr => ?_
    obtain ⟨tainted, hj, htaint⟩ := hr
    refine (ih r.1 r.2).mono fun s hs => ?_
    obtain ⟨tainted', hk, htaint'⟩ := hs
    rw [hj] at hk htaint'
    exact ⟨tainted', hk, fun h => htaint' (htaint h)⟩
  | access act next ih => exact fun i => (ensures_true _).bind fun a _ => ih a i

theorem isUse (d : Dealing) : Pool.IsUse d.use := fun i =>
  (d.ensures_use i).mono fun _ ⟨tainted, h, _⟩ => ⟨i.executing, tainted, i.wasReset, h⟩

/-- **An interpreter that is tainted stays so.** -/
theorem isSome_tainted (d : Dealing) {i : Interpreter} (h : i.tainted.isSome = true) (w : World) :
    ((d.use i).run w).1.2.tainted.isSome = true := by
  obtain ⟨tainted, hi, htaint⟩ := d.ensures_use i w
  rw [hi]
  exact htaint h

/-- **An interpreter one of whose runs was aborted is tainted** in the end, whatever the borrower
has run on it afterwards. -/
theorem isSome_tainted_of_aborts (d : Dealing) : ∀ {i : Interpreter} {w : World}, d.Aborts i w →
    ((d.use i).run w).1.2.tainted.isSome = true := by
  induction d with
  | done => exact fun h => h.elim
  | run body next ih =>
    intro i w h
    rcases h with ⟨f, hf, habort⟩ | h
    · have hmid : ((i.runWith body).run w).1.2.tainted.isSome = true := by
        rcases hr : (World.withBudget i.state body).run w with ⟨r, w'⟩
        rw [hr] at hf habort
        obtain rfl : r = .error f := hf
        rw [Interpreter.runWith, StateT.run_bind, hr]
        show (if Interpreter.isAbort (w'.state i.state) f then
          { i with tainted := some f.message } else i).tainted.isSome = true
        rw [if_pos habort]
        rfl
      exact isSome_tainted (next _) hmid _
    · exact ih _ h
  | access act next ih => exact fun h => ih _ h

end Dealing
end ScriptPool
