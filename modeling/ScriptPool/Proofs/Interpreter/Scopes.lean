import ScriptPool.Proofs.Guest.Scopes
import ScriptPool.Proofs.Interpreter.Collecting
import ScriptPool.Proofs.Interpreter.Fresh

/-!
# Which scopes end

What is done with a world is a sequence of steps, and a scope ends in those that say so: an
interpreter that is reset or let go of ends the scope of its guest state.  Whatever else is done, in
any guest state and by way of whatever functions, ends none.

## What is here

* `World.Happens` — the things that can be done from outside without ending a scope.
* `World.Becomes` — what becomes of a world, with the list of the scopes that ended.
* `World.Becomes.follows` — **the epoch of a state counts how often its scope has ended**, and
  functions are what they were, in the heap and by their handles.
* `World.Follows.isLive_iff`, `World.Follows.isExpired` — so a function is good exactly as long as
  the scope has not ended that it was handed out in, and never again after that.
* `Interpreter.becomes_discard`, `Interpreter.becomes_reset` — **an interpreter that is let go of or
  reset ends its own scope**, whether or not the reset succeeds.
-/

set_option autoImplicit false

namespace ScriptPool
namespace World

/-! ## What can be done with a world

Ends of scopes are kept in a list, and everything else is done between them.  So a history of a
world says by itself which scopes have ended. -/

/-- Something is done from outside that ends no scope. -/
inductive Happens (w : World) : World → Prop where
  | run (i : Interpreter) (script : Script) : w.Happens ((i.run script).run w).2
  | execute (i : Interpreter) (c : Converter) (script : Script) (globals : List (String × Value)) :
      w.Happens ((i.execute c script globals).run w).2
  | setGlobal (i : Interpreter) (name : String) (v : GuestValue) :
      w.Happens ((i.setGlobal name v).run w).2
  | getGlobal (i : Interpreter) (name : String) : w.Happens ((i.getGlobal name).run w).2
  | call (f : FunctionValue) (args : List Value) : w.Happens ((call f args).run w).2
  | callGuest (s : Nat) (f : GuestValue) (args : List GuestValue) :
      w.Happens ((callGuest s f args).run w).2
  | toValue (c : Converter) (s : Nat) (v : GuestValue) : w.Happens ((toValue c s v).run w).2
  | fromValue (c : Converter) (s : Nat) (v : Value) : w.Happens ((fromValue c s v).run w).2
  | restore (s : Nat) (b : Baseline) : w.Happens (w.modifyState s b.restore)
  | collect (s : Nat) : w.Happens ((collect s).run w).2
  | newInterpreter (limits : ResourceLimits) (id now : Nat) :
      w.Happens ((newInterpreter limits id now).run w).2
  | newFunction (f : HostFunction) : w.Happens (w.newFunction (.host f)).2
  | newCodec (codec : Codec) (h : codec.IsCareful) : w.Happens (w.newCodec codec).2

/-- What becomes of a world, one step after the other, while the scopes of the listed states end,
the latest first. -/
inductive Becomes (u : World) : List Nat → World → Prop where
  | refl : u.Becomes [] u
  | step {ended : List Nat} {v w : World} (h : u.Becomes ended v) (d : v.Happens w) :
      u.Becomes ended w
  | ends {ended : List Nat} {v : World} (h : u.Becomes ended v) (s : Nat) :
      u.Becomes (s :: ended) (v.endScope s)

variable {u v w : World} {ended ended' : List Nat} {s : Nat} {g : GuestFunction}

theorem Becomes.trans (h : u.Becomes ended v) (h' : v.Becomes ended' w) :
    u.Becomes (ended' ++ ended) w := by
  induction h' with
  | refl => exact h
  | step _ d ih => exact ih.step d
  | ends _ s ih => exact ih.ends s

instance : IsPreorder World fun u w => u.Becomes [] w where
  refl _ := .refl
  trans _ _ _ h h' := h.trans h'

/-! ## What is left as it is -/

section Keeping

variable {R : World → World → Prop} [IsPreorder World R] (hR : Hosts Everywhere R)
  (hnew : ∀ limits, Transition.Keeps R (newLimitedState limits))

include hR

theorem keeps_takeBaseline (s : Nat) : Transition.Keeps R (takeBaseline s) := fun w => by
  rw [run_takeBaseline]
  exact keeps_stringMetatable (keep_callDepth hR.toServes trivial) w

include hnew

theorem keeps_newInterpreter (limits : ResourceLimits) (id now : Nat) :
    Transition.Keeps R (newInterpreter limits id now) := by
  refine (hnew limits).bind fun made => ?_
  cases made with
  | error f => exact Transition.keeps_pure _
  | ok state =>
    refine (keeps_prepare (hR.budgeted state trivial) _).bind
      fun prepared => ?_
    cases prepared with
    | error f => exact Transition.keeps_pure _
    | ok u =>
      refine (keeps_takeBaseline hR state).bind fun pictured => ?_
      cases pictured with
      | error f => exact Transition.keeps_pure _
      | ok baseline => exact Transition.keeps_pure _

/-- Whatever is done from outside, a relation allows for it that allows for conversions and calls,
for new guest states, and for new functions and codecs of the host. -/
theorem Happens.keeps (hfunction : ∀ w f, R w (w.newFunction (.host f)).2)
    (hcodec : ∀ (w : World) (codec : Codec), codec.IsCareful → R w (w.newCodec codec).2)
    (h : v.Happens w) : R v w := by
  cases h with
  | run i script => exact i.keeps_run hR trivial script v
  | execute i c script globals => exact i.keeps_execute hR trivial c script globals v
  | setGlobal i name x => exact i.keeps_setGlobal hR.toServes trivial name x v
  | getGlobal i name => exact i.keeps_getGlobal hR.toServes trivial name v
  | call f args => exact keeps_call hR.toServes f args v
  | callGuest s f args => exact keeps_callGuest hR.toServes trivial f args v
  | toValue c s x => exact keeps_toValue hR.toServes trivial c x v
  | fromValue c s x => exact keeps_fromValue hR.toServes trivial c x v
  | restore s b =>
    rw [modifyState_eq]
    exact (hR.evaluate s trivial).move v _ (Interpreter.moves_restore b _)
  | collect s => exact keeps_collect hR.toServes trivial v
  | newInterpreter limits id now => exact keeps_newInterpreter hR hnew limits id now v
  | newFunction f => exact hfunction v f
  | newCodec codec h => exact hcodec v codec h

end Keeping

theorem abides_newLimitedState (limits : ResourceLimits) :
    Transition.Keeps Abides (newLimitedState limits) := by
  rw [newLimitedState]
  split
  · exact Transition.keeps_pure _
  · -- what the limits add to the new state has to do with neither its epoch nor its userdata
    have hadded : ∀ g : GuestState, g.epoch = 0 → g.Plain → ∀ w : World,
        w.Abides (w.newState ({ g with memoryLimit := limits.memoryLimit }.install
          (.ofLimits limits))).2 :=
      fun g hepoch hplain w => w.abides_newState hepoch hplain
    exact Transition.keeps_get_bind (hadded _ (GuestState.epoch_withLibraries limits.security)
      (GuestState.plain_withLibraries limits.security))

/-- **No scope ends** but where one is ended. -/
theorem Happens.abides (h : v.Happens w) : v.Abides w :=
  h.keeps admits_abides.hosts abides_newLimitedState (fun w _ => w.abides_newFunction _)
    fun w _ => w.abides_newCodec

/-! ## Epochs count -/

/-- A world while the listed scopes have ended since another. -/
structure Follows (ended : List Nat) (u w : World) : Prop where
  careful : w.IsCareful
  states : u.states.size ≤ w.states.size
  epoch : ∀ s < u.states.size, (w.state s).epoch = (u.state s).epoch + ended.count s
  closures : ∀ (s f : Nat) (c : Closure),
    (u.state s).functions[f]? = some c → (w.state s).functions[f]? = some c
  functions : ∀ (h : Handle) (f : GuestFunction),
    u.functions[h]? = some (.guest f) → w.functions[h]? = some (.guest f)

theorem Follows.step (h : Follows ended u v) (hw : v.Steady w) (hc : w.IsCareful) :
    Follows ended u w where
  careful := hc
  states := Nat.le_trans h.states hw.states
  epoch s hs := (hw.state s).epoch.trans (h.epoch s hs)
  closures s f c hf := (hw.state s).functions f c (h.closures s f c hf)
  functions i f hf := hw.functions i f (h.functions i f hf)

theorem state_endScope (w : World) (s s' : Nat) : (w.endScope s).state s'
    = if s = s' ∧ s < w.states.size then (w.state s').endScope else w.state s' := by
  rw [endScope, modifyState_eq]
  by_cases heq : s = s'
  · obtain rfl := heq
    by_cases hs : s < w.states.size
    · rw [if_pos ⟨rfl, hs⟩, state_setState hs]
    · rw [if_neg fun h => hs h.2, setState_of_le (Nat.not_lt.1 hs)]
  · rw [if_neg fun h => heq h.1, state_setState_of_ne heq]

theorem size_endScope (w : World) (s : Nat) : (w.endScope s).states.size = w.states.size :=
  Array.size_modify

theorem Follows.ends (h : Follows ended u v) (s : Nat) :
    Follows (s :: ended) u (v.endScope s) where
  careful := by
    refine ⟨h.careful.codecs, fun s' => ?_⟩
    rw [state_endScope]
    split <;> exact h.careful.plain s'
  states := by
    rw [size_endScope]
    exact h.states
  epoch s' hs' := by
    have hepoch := h.epoch s' hs'
    rw [state_endScope, List.count_cons]
    by_cases heq : s = s'
    · obtain rfl := heq
      rw [if_pos ⟨rfl, Nat.lt_of_lt_of_le hs' h.states⟩, if_pos (beq_self_eq_true s),
        GuestState.endScope, hepoch, Nat.add_assoc]
    · rw [if_neg fun h => heq h.1, if_neg fun h => heq (beq_iff_eq.1 h), hepoch, Nat.add_zero]
  closures s' f c hf := by
    rw [state_endScope]
    split <;> exact h.closures s' f c hf
  functions := h.functions

/-- **The epoch of a state counts how often its scope has ended.** -/
theorem Becomes.follows (h : u.Becomes ended w) (hu : u.IsCareful) : Follows ended u w := by
  induction h with
  | refl => exact ⟨hu, Nat.le_refl _, fun _ _ => rfl, fun _ _ _ h => h, fun _ _ h => h⟩
  | step _ d ih =>
    obtain ⟨hsteady, hc⟩ := d.abides ih.careful
    exact ih.step hsteady hc
  | ends _ s ih => exact ih.ends s

/-! ## Functions that were handed out

A function carries the epoch in which it was handed out, and epochs only grow.  So it is good until
its epoch is over and never afterwards. -/

namespace Follows

theorem guestFunction? (h : Follows ended u w) {f : FunctionValue}
    (hf : u.guestFunction? f = some g) : w.guestFunction? f = some g :=
  guestFunction?_eq_some.2 (h.functions _ _ (guestFunction?_eq_some.1 hf))

/-- A function that is good stays so exactly as long as the scope of its state has not ended. -/
theorem isLive_iff (h : Follows ended u w) (hs : g.state < u.states.size)
    (hlive : u.isLive g = true) : w.isLive g = true ↔ g.state ∉ ended := by
  rw [World.isLive_iff, h.epoch _ hs, World.isLive_iff.1 hlive, ← List.count_eq_zero]
  omega

end Follows

end World

/-! ## Interpreters -/

namespace Interpreter

/-- An interpreter that is let go of ends its scope. -/
theorem becomes_discard (i : Interpreter) (w : World) :
    w.Becomes [i.state] (i.discard.run w).2 := World.Becomes.refl.ends i.state

/-- **An interpreter that is reset ends its scope**, whether or not the reset succeeds. -/
theorem becomes_reset (i : Interpreter) (w : World) :
    w.Becomes [i.state] (i.reset.run w).2 := by
  have hends : w.Becomes [i.state] (w.endScope i.state) := World.Becomes.refl.ends i.state
  cases htaint : i.tainted with
  | some reason =>
    obtain ⟨e, he⟩ := run_reset_of_tainted (w := w) htaint
    rwa [he]
  | none =>
    have hrestored : w.Becomes [i.state] (i.restored w) := hends.step (.restore i.state i.baseline)
    rw [run_reset_of_untainted htaint]
    exact hrestored.step (.collect i.state)

end Interpreter
end ScriptPool
