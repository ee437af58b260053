import ScriptPool.Interpreter.Execute

/-!
# Transitions and what they ensure

A transition runs in a world, and most of what is said about a pool does not depend on that world:
whatever the guest states look like, the books of the pool agree afterwards.  `Transition.Ensures`
is that kind of statement — the result satisfies a condition, in whichever world the transition runs
— and the rules below take a transition apart along its binds.
-/

set_option autoImplicit false

namespace ScriptPool

namespace Transition

variable {α β : Type}

/-- In every world, the result of the transition satisfies the condition. -/
def Ensures (t : Transition α) (post : α → Prop) : Prop := ∀ w : World, post (t.run w).1

theorem Ensures.of_run {t : Transition α} {post : α → Prop} (h : Ensures t post) {w w' : World}
    {a : α} (hr : t.run w = (a, w')) : post a := by
  have ha := h w
  rw [hr] at ha
  exact ha

theorem ensures_pure {a : α} {post : α → Prop} (h : post a) :
    Ensures (pure a : Transition α) post := fun _ => h

theorem Ensures.mono {t : Transition α} {post weaker : α → Prop} (h : Ensures t post)
    (hw : ∀ a, post a → weaker a) : Ensures t weaker := fun w => hw _ (h w)

theorem Ensures.and {t : Transition α} {post post' : α → Prop} (h : Ensures t post)
    (h' : Ensures t post') : Ensures t fun a => post a ∧ post' a := fun w => ⟨h w, h' w⟩

theorem Ensures.bind {t : Transition α} {f : α → Transition β} {mid : α → Prop} {post : β → Prop}
    (ht : Ensures t mid) (hf : ∀ a, mid a → Ensures (f a) post) : Ensures (t >>= f) post := by
  intro w
  exact hf _ (ht w) _

/-- Of a transition with two results, only the second one may be of interest. -/
theorem Ensures.snd {t : Transition (α × β)} {post : β → Prop}
    (h : Ensures t fun r => post r.2) : Ensures (do return (← t).2) post :=
  h.bind fun _ hr => ensures_pure hr

theorem ensures_true (t : Transition α) : Ensures t fun _ => True := fun _ => trivial

end Transition

namespace Interpreter

open Transition

@[simp] theorem lent_id (i : Interpreter) : i.lent.id = i.id := rfl

/-- How a reset ends: it has failed and the interpreter is as it was, or it has succeeded, which is
noted, and the interpreter was not tainted. -/
inductive ResetTo (i : Interpreter) : Except InterpreterError Unit × Interpreter → Prop where
  | failed (e : InterpreterError) : ResetTo i (.error e, i)
  | succeeded (untainted : i.tainted = none) : ResetTo i (.ok (), { i with wasReset := true })

/-- It is the same interpreter either way. -/
theorem ResetTo.same {i : Interpreter} {r : Except InterpreterError Unit × Interpreter}
    (h : ResetTo i r) : r.2.state = i.state ∧ r.2.baseline = i.baseline := by
  cases h with
  | failed e => exact ⟨rfl, rfl⟩
  | succeeded untainted => exact ⟨rfl, rfl⟩

theorem ensures_reset (i : Interpreter) : Ensures i.reset (ResetTo i) := by
  rw [reset]
  refine (ensures_true _).bind fun _ _ => ?_
  split
  · exact ensures_pure (.failed _)
  · rename_i untainted
    refine (ensures_true _).bind fun _ _ => (ensures_true _).bind fun r _ => ?_
    cases r with
    | error f => exact ensures_pure (.failed _)
    | ok u => exact ensures_pure (.succeeded untainted)

/-- Whatever is done under the budget can taint an interpreter, and changes nothing else about it.
-/
theorem ensures_runWith {α : Type} (i : Interpreter)
    (body : Nat → Transition (Except GuestFault α)) :
    Ensures (i.runWith body) fun r =>
      ∃ tainted, r.2 = { i with tainted } ∧ (i.tainted.isSome = true → tainted.isSome = true) := by
  rw [runWith]
  refine (ensures_true _).bind fun r _ => ?_
  cases r with
  | ok a => exact ensures_pure ⟨i.tainted, rfl, fun h => h⟩
  | error f =>
    refine (ensures_true _).bind fun w _ => ensures_pure ?_
    dsimp only
    split
    · exact ⟨_, rfl, fun _ => rfl⟩
    · exact ⟨i.tainted, rfl, fun h => h⟩

/-- Running a script can taint an interpreter and changes nothing else about it. -/
theorem ensures_run (i : Interpreter) (script : Script) :
    Ensures (i.run script) fun r => ∃ tainted, r.2 = { i with tainted } :=
  (i.ensures_runWith _).mono fun _ ⟨tainted, h, _⟩ => ⟨tainted, h⟩

/-- Nor does executing one with values of the host. -/
theorem ensures_execute (i : Interpreter) (c : Converter) (script : Script)
    (globals : List (String × Value)) :
    Ensures (i.execute c script globals) fun r => ∃ tainted, r.2 = { i with tainted } := by
  rw [execute]
  refine (ensures_true _).bind fun r _ => ?_
  cases r with
  | error e => exact ensures_pure ⟨i.tainted, rfl⟩
  | ok u =>
    refine (i.ensures_run script).bind fun r hr => ?_
    rcases r with ⟨_ | results, j⟩
    · exact ensures_pure hr
    · exact (ensures_true _).bind fun _ _ => ensures_pure hr

end Interpreter

namespace World

open Transition

/-- A new interpreter has the number that was asked for. -/
theorem ensures_newInterpreter (limits : ResourceLimits) (id now : Nat) :
    Ensures (newInterpreter limits id now) fun r => ∀ i, r = .ok i → i.id = id := by
  have hfail : ∀ f : GuestFault, Ensures
      (pure (.error (.creation f.message)) : Transition (Except InterpreterError Interpreter))
      fun r => ∀ i, r = .ok i → i.id = id := fun f => ensures_pure fun i hi => by cases hi
  rw [newInterpreter]
  refine (ensures_true _).bind fun r _ => ?_
  cases r with
  | error f => exact hfail f
  | ok state =>
    refine (ensures_true _).bind fun r _ => ?_
    cases r with
    | error f => exact hfail f
    | ok u =>
      refine (ensures_true _).bind fun r _ => ?_
      cases r with
      | error f => exact hfail f
      | ok baseline =>
        refine ensures_pure fun i hi => ?_
        cases hi
        rfl

end World
end ScriptPool
