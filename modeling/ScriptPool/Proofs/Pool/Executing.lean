import ScriptPool.Proofs.Interpreter.Unused
import ScriptPool.Proofs.Pool.Scopes
import ScriptPool.Service.Turn

/-!
# Executing a script ends its loan

A script is executed on an interpreter that was lent for that, and however the execution ends, the
interpreter is handed back.  Then it is reset and idle again, or it is let go of.

## What is here

* `execution` — the two moves, and `Service.run_runScript`: they are what a service does.
* `Returned`, `returned_giveBack` — **what a return does** to the pool and to the world.
* `Move.inUse_of_lends`, `Balanced.concluded` — a move that lends an interpreter counts one more on
  loan, and **a return ends the loan**.
-/

set_option autoImplicit false

namespace ScriptPool
namespace Pool

open Transition (Ensures)

variable {born : List Interpreter} {p q : Pool} {i j : Interpreter} {id : Nat} {v w w' : World}

/-! ## Returns

A return lets go of the interpreter, for whatever reason, or it resets it and puts it back.  All
that is said here of a return is said of the two. -/

/-- What a return comes to: the interpreter was reset and is at the end of the queue, or it was let
go of. -/
inductive Returned (i : Interpreter) (now : Nat) (p : Pool) (w : World) (q : Pool) (w' : World) :
    Prop where
  | kept (untainted : i.tainted = none)
      (idle : q.idle = p.idle ++ [({ i with wasReset := true } : Interpreter).handedBack now])
      (world : (World.collect i.state).run (i.restored w) = (.ok (), w'))
  | gone (idle : q.idle = p.idle) (destroyed : q.counters.destroyed = p.counters.destroyed + 1)

theorem replace_eq (p : Pool) :
    p.replace.idle = p.idle ∧ p.replace.counters = p.counters := by
  rw [replace]
  cases h : p.plan? .replacement with
  | none => exact ⟨rfl, rfl⟩
  | some q =>
    rw [plan?] at h
    split at h
    · cases h
    · obtain ⟨r, hr, rfl⟩ := Option.map_eq_some_iff.1 h
      rw [(reserve?_eq_some hr).2]
      exact ⟨rfl, rfl⟩

/-- An interpreter that is let go of and replaced is not put into the queue. -/
theorem returned_recycle (now : Nat) (v : World) :
    Returned i now p v (((p.endLoan i.id now).recycle j).run w).1 w' := by
  obtain ⟨hidle, hcounters⟩ := replace_eq ((({ p.endLoan i.id now with
    counters := { p.counters with recycled := p.counters.recycled + 1 } } : Pool).discard j).run w).1
  exact .gone hidle (congrArg PoolCounters.destroyed hcounters)

/-- **What a return does.** -/
theorem returned_takeBack (p : Pool) (i : Interpreter) (now : Nat) (w : World) :
    Returned i now p w ((p.takeBack i now).run w).1 ((p.takeBack i now).run w).2 := by
  rw [takeBack]
  show Returned i now p w
    ((if (p.endLoan i.id now).closed then _ else _ : Transition Pool).run w).1
    ((if (p.endLoan i.id now).closed then _ else _ : Transition Pool).run w).2
  split
  · exact .gone rfl rfl
  · rename_i hopen
    split
    · exact returned_recycle now w
    · rcases hreset : i.reset.run w with ⟨⟨r, k⟩, v⟩
      rw [Transition.run_bind_eq hreset]
      cases r with
      | error e => exact returned_recycle now w
      | ok u =>
        obtain ⟨htainted, hcollect, -⟩ := Interpreter.reset_ok hreset
        cases i.ensures_reset.of_run hreset with
        | succeeded _ =>
          dsimp only
          rw [addIdle, if_neg hopen]
          refine .kept htainted ?_ hcollect
          show (addPermit _).idle = _
          rw [addPermit]
          split <;> rfl

/-- A return works in the state of the interpreter that is handed back. -/
theorem isLocal_takeBack (p : Pool) (i : Interpreter) (now : Nat) :
    World.IsLocal i.state (p.takeBack i now) := by
  intro P R _ hR hends hi
  have hrecycle : ∀ p : Pool, Transition.Keeps R (p.recycle i) := fun _ =>
    (ending_discard hends _ hi).bind fun _ => Transition.keeps_pure _
  rw [takeBack]
  show Transition.Keeps R (if (p.endLoan i.id now).closed then _ else _)
  split
  · exact ending_discard hends _ hi
  · split
    · exact hrecycle _
    · refine (i.keeps_reset hends hR.serves hi).bind_ensures i.ensures_reset fun r hr => ?_
      cases hr with
      | failed e => exact hrecycle _
      | succeeded untainted =>
        exact ending_addIdle (i := ({ i with wasReset := true } : Interpreter).handedBack now) hends
          _ hi

theorem returned_giveBack {now : Nat} (hi : p.loan? id = some i)
    (hrun : (p.giveBack id now).run w = (q, w')) : Returned i now p w q w' := by
  have hback := returned_takeBack p i now w
  rw [giveBack, hi] at hrun
  rwa [show (p.takeBack i now).run w = (q, w') from hrun] at hback

/-! ## Loans -/

/-- A move lends one interpreter, or none. -/
theorem Move.lends_cases {m : Move} (ha : m.Allowed p) (hrun : (m.apply p).run w = (q, w')) :
    q.loans.map (·.id) ⊆ p.loans.map (·.id) ∨ ∃ i, q.loans = p.loans ++ [i] := by
  cases Move.loans ha hrun with
  | same loans => exact .inl (loans ▸ List.Subset.refl _)
  | lent _ loans => exact .inr ⟨_, loans⟩
  | back _ loans => exact .inl (loans ▸ (List.filter_sublist.map _).subset)
  | used _ _ _ numbers => exact .inl (numbers ▸ List.Subset.refl _)

/-- **A move that lends an interpreter counts one more on loan.** -/
theorem Move.inUse_of_lends {m : Move} (hb : Balanced born p 0 0 []) (ha : m.Allowed p)
    (hrun : (m.apply p).run w = (q, w')) (hid : id ∈ handedOut p q) : q.inUse = p.inUse + 1 := by
  obtain ⟨hmem, hnot⟩ := mem_handedOut.1 hid
  rcases Move.lends_cases ha hrun with hnone | ⟨i, hi⟩
  · exact absurd (hnone hmem) hnot
  · rw [(Step.balanced hb ⟨ha, w, w', hrun⟩).inUse, hi, List.length_append, List.length_singleton,
      hb.inUse]

/-- A loan has ended: one interpreter less is on loan, and the one with the number is idle again and
not tainted, or it is gone and has been counted as discarded. -/
structure Concluded (id : Nat) (p q : Pool) : Prop where
  inUse : q.inUse + 1 = p.inUse
  returned : id ∉ q.loans.map (·.id)
  whereabouts : (∃ i ∈ q.idle, i.id = id ∧ i.tainted = none)
    ∨ id ∉ q.numbers ∧ q.counters.destroyed = p.counters.destroyed + 1

/-- **A return ends the loan**, whatever was done with the interpreter. -/
theorem Balanced.concluded (hb : Balanced born p 0 0 []) {now : Nat}
    (ha : (Move.giveBack id now).Allowed p) (hrun : (p.giveBack id now).run w = (q, w')) :
    Concluded id p q := by
  have hbq := Step.balanced hb ⟨ha, w, w', hrun⟩
  obtain ⟨i, hi, htaken⟩ := Move.effect ha hrun
  obtain ⟨hmem, rfl⟩ := loan?_eq_some hi
  -- either way the loan is taken out of the books, and nothing is in the making that was not
  obtain ⟨queued, h⟩ := htaken.receives
  have hloans : q.loans = p.loans.filter fun j => j.id != i.id := h.loans_of_nil
  have hcreations : q.creations = p.creations := h.creations
  have hgone : i.id ∉ q.loans.map (·.id) := fun hin => by
    obtain ⟨j, hj, hid⟩ := List.mem_map.1 hin
    rw [hloans] at hj
    exact bne_iff_ne.1 (List.mem_filter.1 hj).2 hid
  refine ⟨?_, hgone, ?_⟩
  · rw [hbq.inUse, hb.inUse, hloans, (perm_cons_filter hb.nodup_loans hmem).length_eq,
      List.length_cons]
  · cases returned_giveBack hi hrun with
    | kept untainted idle =>
      refine .inl ⟨({ i with wasReset := true } : Interpreter).handedBack now, ?_, rfl, untainted⟩
      rw [idle]
      exact List.mem_append_right _ List.mem_cons_self
    | gone idle destroyed =>
      refine .inr ⟨fun hin => ?_, destroyed⟩
      rw [Pool.numbers, idle, hcreations] at hin
      rcases List.mem_append.1 hin with hin | hin
      · rcases List.mem_append.1 hin with hin | hin
        · obtain ⟨j, hj, hid⟩ := List.mem_map.1 hin
          exact hb.idle_ne_loan hj hmem hid
        · exact hgone hin
      · obtain ⟨c, hc, hid⟩ := List.mem_map.1 hin
        exact hb.creation_ne_loan hc hmem hid

/-! ## Executions

An execution is described as two moves of the pool, so that whatever is known of moves is known of
it.  That this is the service's own execution is shown at the end. -/

/-- Executes a script on an interpreter that was lent for that, and hands the interpreter back. -/
def execution (p : Pool) (id : Nat) (c : Converter) (script : Script)
    (globals : List (String × Value)) (now : Nat) :
    Transition (Option (Except ExecutionError Value) × Pool) := do
  let (outcome, p) ← p.onLoan id fun i => i.execute c script globals
  return (outcome, ← p.giveBack id now)

/-- The first of its moves. -/
def Move.execute (id : Nat) (c : Converter) (script : Script) (globals : List (String × Value)) :
    Move :=
  .onLoan id (droppingResult fun i => i.execute c script globals)

/-- What becomes of the pool when a borrower does something. -/
def afterUse (p : Pool) (id : Nat) (j : Interpreter) : Pool :=
  { p with loans := p.loans.map fun other => if other.id == id then j else other }

section Executions

variable {c : Converter} {script : Script} {globals : List (String × Value)} {now : Nat}

theorem run_onLoan {α : Type} (hi : p.loan? id = some i)
    (use : Interpreter → Transition (α × Interpreter)) : (p.onLoan id use).run v
      = ((some ((use i).run v).1.1, p.afterUse id ((use i).run v).1.2), ((use i).run v).2) := by
  rw [onLoan, hi]
  rfl

theorem run_execute (hi : p.loan? id = some i) : ((Move.execute id c script globals).apply p).run v
    = (p.afterUse id ((i.execute c script globals).run v).1.2,
      ((i.execute c script globals).run v).2) := by
  rw [Move.execute, Move.apply, Transition.run_bind_eq (run_onLoan hi _)]
  rfl

/-- **An execution is two moves**, and its outcome is that of the script. -/
theorem run_execution (hi : p.loan? id = some i) {p₁ : Pool} {v₁ : World}
    (huse : ((Move.execute id c script globals).apply p).run v = (p₁, v₁))
    (hback : (p₁.giveBack id now).run v₁ = (q, w)) :
    (p.execution id c script globals now).run v
      = ((some ((i.execute c script globals).run v).1.1, q), w) := by
  rw [run_execute hi] at huse
  obtain ⟨rfl, rfl⟩ := Prod.mk.inj huse
  rw [execution, Transition.run_bind_eq (run_onLoan hi _)]
  dsimp only
  rw [Transition.run_bind_eq hback]
  rfl

end Executions

end Pool

namespace Service

variable {s s' : Service} {v w : World} {α β : Type}

/-- What follows a step goes on from where the step leads. -/
theorem run_bind_eq {t : Move α} {f : α → Move β} {a : α} (h : (t.run s).run v = ((a, s'), w)) :
    ((t >>= f).run s).run v = ((f a).run s').run w := by
  rw [StateT.run_bind]
  exact Transition.run_bind_eq h

theorem run_act {t : Transition α} {a : α} (h : t.run v = (a, w)) :
    ((act t).run s).run v = ((a, s), w) :=
  (Transition.run_bind_eq (f := fun a => pure (a, s)) h).trans rfl

theorem run_onPool {t : Pool → Transition (α × Pool)} {a : α} {p : Pool}
    (h : (t s.pool).run v = ((a, p), w)) :
    ((onPool t).run s).run v = ((a, { s with pool := p }), w) := by
  have hget : ((get : Move Service).run s).run v = ((s, s), v) := rfl
  rw [onPool, run_bind_eq hget, run_bind_eq (run_act h)]
  rfl

theorem run_giveBack {id : Nat} {p : Pool} (h : (s.pool.giveBack id s.now).run v = (p, w)) :
    ((giveBack id).run s).run v = (((), { s with pool := p }), w) := by
  have hget : ((get : Move Service).run s).run v = ((s, s), v) := rfl
  rw [giveBack, run_bind_eq hget]
  refine run_onPool ?_
  rw [Transition.run_bind_eq h]
  rfl

/-- **This is what a service does** for whoever wants a script executed: the outcome of the
execution is what the request ends with. -/
theorem run_runScript {r : Request} {c : Converter} {script : Script}
    {globals : List (String × Value)} (hr : r.errand = .execute c script globals) {id : Nat}
    {p : Pool} {outcome : Except ExecutionError Value}
    (h : (s.pool.execution id c script globals s.now).run v = ((some outcome, p), w)) :
    ((runScript r id).run s).run v = (((), { s with
      pool := p
      endings := s.endings ++ [(r.key, .execution outcome)]
      requests := s.requests.filter fun other => other.key != r.key }), w) := by
  rcases huse : (s.pool.onLoan id fun i => i.execute c script globals).run v with ⟨⟨result, p₁⟩, v₁⟩
  rcases hback : (p₁.giveBack id s.now).run v₁ with ⟨p₂, v₂⟩
  rw [Pool.execution, Transition.run_bind_eq huse] at h
  dsimp only at h
  rw [Transition.run_bind_eq hback] at h
  cases h
  rw [runScript, hr]
  dsimp only
  rw [run_bind_eq (run_onPool huse), run_bind_eq (run_giveBack hback)]
  rfl

end Service
end ScriptPool
