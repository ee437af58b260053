import ScriptPool.Proofs.Interpreter.Running
import ScriptPool.Proofs.Pool.Traffic

/-!
# What moves of a pool do to the world

A pool lets go of interpreters, which ends the scopes of their guest states, and that is all that
its moves do to the world, but for two: what a borrower does with his interpreter, and its return.
So whatever relation between worlds allows for ending scopes allows for the other moves.

## What is here

* `ending_discard` and so on — the operations of a pool, for a relation that allows for ending the
  scopes of certain states.
* `Move.ending` — **so it allows for all moves of a pool that are not a borrower's**, if those are
  the states of interpreters that are not on loan.
-/

set_option autoImplicit false

namespace ScriptPool

namespace Pool

variable {P : Nat → Prop} {R : World → World → Prop} [IsPreorder World R] {p q : Pool}
  {i : Interpreter} (hR : World.AllowsEnds P R)

/-! ## Operations -/

section Operations

include hR

omit [IsPreorder World R] in
theorem ending_discard (p : Pool) (hi : P i.state) : Transition.Keeps R (p.discard i) :=
  fun w => hR _ w hi

theorem ending_discardAll (l : List Interpreter) : ∀ p : Pool, (∀ i ∈ l, P i.state) →
    Transition.Keeps R (p.discardAll l) := by
  induction l with
  | nil => exact fun p _ => Transition.keeps_pure p
  | cons i l ih =>
    exact fun p h => (ending_discard hR p (h i List.mem_cons_self)).bind fun q =>
      ih q fun j hj => h j (List.mem_cons_of_mem i hj)

theorem ending_addIdle (p : Pool) (hi : P i.state) :
    Transition.Keeps R (p.addIdle i) := by
  rw [addIdle]
  split
  · exact ending_discard hR p hi
  · exact Transition.keeps_pure _

section Queue

variable (h : ∀ i ∈ p.idle, P i.state)

include h

omit [IsPreorder World R] hR in
/-- What an operation leaves in the queue was there before. -/
theorem forall_idle_of_receives {lent : List Interpreter} (hq : Receives [] lent p q) :
    ∀ i ∈ q.idle, P i.state := fun i hi => h i (hq.idle_of_nil hi)

theorem ending_checkOut : Transition.Keeps R p.checkOut := by
  rw [checkOut]
  split
  · exact Transition.keeps_pure _
  · rename_i i q hq
    split
    · exact (ending_discard hR q (h i (receives_takeIdle? hq).1)).bind fun _ =>
        Transition.keeps_pure _
    · exact Transition.keeps_pure _

omit h in
theorem ending_checkOutAny (n : Nat) : ∀ p : Pool, (∀ i ∈ p.idle, P i.state) →
    Transition.Keeps R (checkOutAny n p) := by
  induction n with
  | zero => exact fun p _ => Transition.keeps_pure _
  | succ n ih =>
    intro p h
    rw [checkOutAny]
    split
    · exact Transition.keeps_pure _
    · rename_i q hq
      obtain ⟨k, -, rfl⟩ := takePermit?_eq_some hq
      have h' : ∀ i ∈ ({ p with permits := k } : Pool).idle, P i.state := h
      refine (ending_checkOut hR h').bind_ensures (receives_checkOut _) fun r hr => ?_
      rcases r with ⟨_ | i, r⟩
      · exact ih r (forall_idle_of_receives h' hr.1)
      · exact Transition.keeps_pure _

theorem ending_serve (key now : Nat) (waitedBefore : Bool) :
    Transition.Keeps R (p.serve key now waitedBefore) := by
  rw [serve]
  split
  · exact Transition.keeps_pure _
  · refine (ending_checkOutAny hR p.permits p h).bind fun r => ?_
    rcases r with ⟨_ | i, r⟩
    · dsimp only
      split <;> exact Transition.keeps_pure _
    · exact Transition.keeps_pure _

theorem ending_resume (key now : Nat) :
    Transition.Keeps R (p.resume key now) := by
  let p' := { p with granted := p.granted.erase key }
  have h' : ∀ i ∈ p'.idle, P i.state := h
  rw [resume]
  refine (ending_checkOut hR h').bind_ensures (receives_checkOut p') fun r hr => ?_
  rcases r with ⟨_ | i, r⟩
  · exact ending_serve hR (forall_idle_of_receives h' hr.1) key now true
  · exact Transition.keeps_pure _

theorem ending_sweep (now : Nat) : Transition.Keeps R (p.sweep now) := by
  have hcut := (splitStale_cut (isStale p.config now) (if p.drained then 0 else p.permits) p.idle).1
  exact (ending_discardAll hR _ _ fun i hi =>
    h i (hcut.subset (List.mem_append_left _ hi))).bind fun _ => Transition.keeps_pure _

theorem ending_drain : Transition.Keeps R p.drain :=
  (ending_discardAll hR p.idle _ h).bind fun _ => Transition.keeps_pure _

omit h in
theorem ending_shrink (n : Nat) : ∀ p : Pool, (∀ i ∈ p.idle, P i.state) →
    Transition.Keeps R (p.shrink n) := by
  induction n with
  | zero => exact fun p _ => Transition.keeps_pure _
  | succ n ih =>
    intro p h
    rw [shrink]
    split
    · exact Transition.keeps_pure _
    · split
      · exact Transition.keeps_pure _
      · rename_i q hq
        obtain ⟨k, -, rfl⟩ := takePermit?_eq_some hq
        split
        · exact Transition.keeps_pure _
        · rename_i i hi
          refine (ending_discard hR _ (h i (List.mem_of_getLast? hi))).bind_ensures
            (receives_discard _ _) fun r hr => ?_
          refine (ih r fun j hj => h j ?_).bind fun _ => Transition.keeps_pure _
          exact (List.dropLast_sublist _).subset (hr.idle_of_nil hj)

end Queue

theorem ending_collect (p : Pool) (c : Creation) {outcome : Except InterpreterError Interpreter}
    (now : Nat) (h : ∀ i, outcome = .ok i → P i.state) :
    Transition.Keeps R (p.collect c outcome now) := by
  unfold collect
  cases c.purpose with
  | none =>
    cases outcome with
    | error e => exact Transition.keeps_pure _
    | ok i => exact (ending_discard hR p (h i rfl)).bind fun _ => Transition.keeps_pure _
  | some purpose =>
    cases outcome with
    | error e => cases purpose <;> exact Transition.keeps_pure _
    | ok i =>
      cases purpose with
      | request key => exact Transition.keeps_pure _
      | replacement => exact (ending_addIdle hR _ (h i rfl)).bind fun _ => Transition.keeps_pure _
      | growth => exact (ending_addIdle hR _ (h i rfl)).bind fun _ => Transition.keeps_pure _

end Operations

/-! ## Moves

That is said for any relation between worlds, so that it need be proved only once: relations that
speak of scopes, of unused interpreters or of states that are spared are all of that kind. -/

/-- The state of an interpreter that is not on loan: it is idle, or has just been made. -/
def Unlent (p : Pool) (s : Nat) : Prop :=
  (∃ i ∈ p.idle, i.state = s) ∨ ∃ c ∈ p.creations, ∃ i, c.outcome = some (.ok i) ∧ i.state = s

/-- A move that is neither what a borrower does, nor a return, nor the end of a creation. -/
def Move.IsInternal : Move → Prop
  | .onLoan _ _ | .giveBack _ _ | .endCreation _ _ => False
  | _ => True

/-- **All that moves of a pool do to the world is to end scopes** of interpreters that are not on
loan, if they are not a borrower's. -/
theorem Move.ending {m : Move} (hm : m.IsInternal) (ha : m.Allowed p)
    (hR : World.AllowsEnds (Unlent p) R) : Transition.Keeps R (m.apply p) := by
  have hidle : ∀ i ∈ p.idle, Unlent p i.state := fun i hi => .inl ⟨i, hi, rfl⟩
  have hsnd : ∀ {α : Type} {t : Transition (α × Pool)}, Transition.Keeps R t →
      Transition.Keeps R (do return (← t).2) := fun h => h.bind fun _ => Transition.keeps_pure _
  cases m with
  | request key now =>
    refine hsnd ?_
    exact ending_serve hR (p := { p with
      counters := { p.counters with requests := p.counters.requests + 1 }
      recent := p.recent.record now }) hidle key now false
  | resume key now => exact hsnd (ending_resume hR hidle key now)
  | collect c outcome now =>
    exact hsnd (ending_collect hR p c now fun i hi => .inr ⟨c, ha.1, i, hi ▸ ha.2, rfl⟩)
  | shrink count => exact hsnd (ending_shrink hR count p hidle)
  | sweep now => exact hsnd (ending_sweep hR hidle now)
  | drain => exact ending_drain hR hidle
  | giveBack => exact hm.elim
  | onLoan => exact hm.elim
  | endCreation => exact hm.elim
  | _ => exact Transition.keeps_pure _

end Pool
end ScriptPool
