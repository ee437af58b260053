import ScriptPool.Proofs.Pool.Clean
import ScriptPool.Proofs.Pool.Diary
import ScriptPool.Proofs.Pool.Load

/-!
# The table of loads, kept by every operation

An interpreter gets an entry in the table of loads when it is lent out for the first time, and loses
it wherever the pool lets go of it.  In between, the entry follows its loans.

## What is here

* `Tallied` — the table says about the interpreters of the pool, and of no others, what is due by a
  history of loans.  As with the books of the pool, interpreters that a move has in hand count as
  well.
* One lemma for each operation.  Those that begin or end a loan add it to the history:
  `Tallied.lend` and `Tallied.endLoan`, and `Tallied.discard` takes the entry out.
-/

set_option autoImplicit false

namespace ScriptPool
namespace Pool

open Transition LoanEvent

variable {d : List LoanEvent} {p q : Pool} {hand : List Interpreter} {i : Interpreter} {id : Nat}

/-! ## What the table should say -/

/-- The interpreters in hand and those in a pool. -/
def stock (hand : List Interpreter) (p : Pool) : List Interpreter := hand ++ (p.idle ++ p.loans)

theorem mem_map_stock : id ∈ (stock hand p).map (·.id)
    ↔ id ∈ hand.map (·.id) ∨ id ∈ p.idle.map (·.id) ∨ id ∈ p.loans.map (·.id) := by
  simp only [stock, List.map_append, List.mem_append]

/-- The table of loads has the entries that are due by a history, for the interpreters in the pool
and in hand.  Those know themselves how often they were lent out, and the history knows which of
them are on loan. -/
structure Tallied (d : List LoanEvent) (p : Pool) (hand : List Interpreter) : Prop where
  entries : ∀ id, p.loads.get? id
    = if id ∈ (stock hand p).map (·.id) then due d id else none
  uses : ∀ i ∈ stock hand p, i.useCount = timesLent d i.id
  distinct : ((stock hand p).map (·.id)).Nodup
  /-- No interpreter has two entries. -/
  single : (p.loads.map (·.1)).Nodup
  consistent : Consistent d
  away : ∀ id, (since? d id).isSome = true ↔ id ∈ p.loans.map (·.id)

/-- The queue, the loans, the table of loads and the counters are as before. -/
structure SameStock (p q : Pool) : Prop where
  idle : q.idle = p.idle
  loans : q.loans = p.loans
  loads : q.loads = p.loads
  counters : q.counters = p.counters

namespace SameStock

theorem refl (p : Pool) : SameStock p p := ⟨rfl, rfl, rfl, rfl⟩

theorem trans {r : Pool} (h : SameStock p q) (h' : SameStock q r) : SameStock p r :=
  ⟨h'.idle.trans h.idle, h'.loans.trans h.loans, h'.loads.trans h.loads,
    h'.counters.trans h.counters⟩

theorem addPermit (p : Pool) : SameStock p p.addPermit := by
  rw [Pool.addPermit]
  split <;> exact ⟨rfl, rfl, rfl, rfl⟩

theorem reserve? (h : p.reserve? = some q) : SameStock p q := by
  rw [(reserve?_eq_some h).2]
  exact ⟨rfl, rfl, rfl, rfl⟩

theorem plan? {purpose : Purpose} (h : p.plan? purpose = some q) : SameStock p q := by
  rw [Pool.plan?] at h
  split at h
  · cases h
  · obtain ⟨r, hr, rfl⟩ := Option.map_eq_some_iff.1 h
    exact (reserve? hr).trans ⟨rfl, rfl, rfl, rfl⟩

theorem replace (p : Pool) : SameStock p p.replace := by
  rw [Pool.replace]
  cases h : p.plan? .replacement with
  | none => exact .refl p
  | some q => exact plan? h

theorem refill (n : Nat) : ∀ p : Pool, SameStock p (Pool.refill n p) := by
  induction n with
  | zero => exact .refl
  | succ n ih =>
    intro p
    rw [Pool.refill]
    cases h : p.plan? .replacement with
    | none => exact .refl p
    | some q => exact (plan? h).trans (ih q)

theorem grow (n : Nat) : ∀ p : Pool, SameStock p (p.grow n).2 := by
  induction n with
  | zero => exact .refl
  | succ n ih =>
    intro p
    rw [Pool.grow]
    cases h : p.plan? .growth with
    | none => exact .refl p
    | some q => exact (plan? h).trans (ih q)

theorem giveUp (p : Pool) (key : Nat) : SameStock p (p.giveUp key) := by
  rw [Pool.giveUp]
  split
  · have hgrant : SameStock p { p with granted := p.granted.erase key } :=
      ⟨rfl, rfl, rfl, rfl⟩
    exact hgrant.trans (addPermit _)
  · split <;> exact ⟨rfl, rfl, rfl, rfl⟩

end SameStock

/-! ## Operations

As with the books, an interpreter may be in somebody's hand within a move.  Its entry stays while it
changes hands; it goes when it is let go of, and a loan begins or ends exactly when it is lent or
taken back. -/

namespace Tallied

/-- Interpreters may change places, other than between the pool and the loans. -/
theorem of_perm (h : Tallied d p hand) {hand' : List Interpreter}
    (hperm : (stock hand' q).Perm (stock hand p)) (hloans : q.loans = p.loans)
    (hloads : q.loads = p.loads) : Tallied d q hand' where
  entries id := by
    rw [hloads, h.entries]
    exact if_congr (hperm.map _).mem_iff.symm rfl rfl
  uses i hi := h.uses i (hperm.mem_iff.1 hi)
  distinct := (hperm.map _).nodup_iff.2 h.distinct
  single := hloads ▸ h.single
  consistent := h.consistent
  away id := hloans ▸ h.away id

theorem nodup_loans (h : Tallied d p hand) : (p.loans.map (·.id)).Nodup := by
  have hnodup := h.distinct
  simp only [stock, List.map_append] at hnodup
  exact hnodup.of_append_right.of_append_right

/-- An operation that leaves the queue, the loans and the table alone. -/
theorem of_eq (h : Tallied d p hand) (hidle : q.idle = p.idle) (hloans : q.loans = p.loans)
    (hloads : q.loads = p.loads) : Tallied d q hand := by
  refine h.of_perm ?_ hloans hloads
  rw [stock, stock, hidle, hloans]

theorem same (h : Tallied d p hand) (s : SameStock p q) : Tallied d q hand :=
  h.of_eq s.idle s.loans s.loads

theorem counters (h : Tallied d p hand) (c : PoolCounters) :
    Tallied d { p with counters := c } hand := h.of_eq rfl rfl rfl

theorem permits (h : Tallied d p hand) (n : Nat) : Tallied d { p with permits := n } hand :=
  h.of_eq rfl rfl rfl

theorem granted (h : Tallied d p hand) (l : List Nat) : Tallied d { p with granted := l } hand :=
  h.of_eq rfl rfl rfl

theorem dropCreation (h : Tallied d p hand) (id : Nat) : Tallied d (p.dropCreation id) hand :=
  h.of_eq rfl rfl rfl

/-- Interpreters go from the queue to the hand. -/
theorem unqueue (h : Tallied d p hand) {out kept : List Interpreter}
    (hperm : (out ++ kept).Perm p.idle) (hidle : q.idle = kept) (hloans : q.loans = p.loans)
    (hloads : q.loads = p.loads) : Tallied d q (out ++ hand) := by
  refine h.of_perm ?_ hloans hloads
  have hswap : (stock (out ++ hand) q).Perm (stock (hand ++ out) q) :=
    List.perm_append_comm.append_right _
  have hshift : stock (hand ++ out) q = hand ++ ((out ++ kept) ++ p.loans) := by
    simp only [stock, hidle, hloans, List.append_assoc]
  rw [hshift] at hswap
  exact hswap.trans ((hperm.append_right _).append_left _)

/-- **An interpreter that is let go of loses its entry.** -/
theorem discard (h : Tallied d p (i :: hand)) :
    Ensures (p.discard i) fun q => Tallied d q hand := by
  have hnodup := List.nodup_cons.1 h.distinct
  refine (ensures_true _).bind fun _ _ => ensures_pure ⟨fun id => ?_,
    fun j hj => h.uses j (List.mem_cons_of_mem i hj), hnodup.2,
    LoadTable.nodup_remove h.single i.id, h.consistent, h.away⟩
  refine (LoadTable.get?_remove _ _ _).trans ?_
  by_cases hid : id = i.id
  · rw [if_pos hid, hid]
    exact (if_neg hnodup.1).symm
  · rw [if_neg hid, h.entries]
    exact if_congr (List.mem_cons.trans (or_iff_right hid)) rfl rfl

theorem discardAll (l : List Interpreter) : ∀ {p : Pool}, Tallied d p (l ++ hand) →
    Ensures (p.discardAll l) fun q => Tallied d q hand := by
  induction l with
  | nil => exact fun h => ensures_pure h
  | cons i l ih => exact fun h => (discard h).bind fun q hq => ih hq

/-- An interpreter that is in the queue or in hand is not on loan. -/
theorem since?_eq_none (h : Tallied d p (i :: hand)) : since? d i.id = none := by
  cases hs : since? d i.id with
  | none => rfl
  | some start =>
    have hloan := (h.away i.id).1 (by rw [hs]; rfl)
    refine absurd ?_ (List.nodup_cons.1 h.distinct).1
    exact mem_map_stock.2 (.inr (.inr hloan))

/-- **A loan begins.** -/
theorem lend (h : Tallied d p (i :: hand)) (now : Nat) :
    Tallied (.lent i.id now :: d) (p.lend i now) hand := by
  have hnodup := List.nodup_cons.1 h.distinct
  have hoff := h.since?_eq_none
  have hperm : (stock hand (p.lend i now)).Perm (i.lent :: stock hand p) := by
    show (hand ++ (p.idle ++ (p.loans ++ [i.lent]))).Perm _
    rw [← List.append_assoc p.idle, ← List.append_assoc hand]
    exact List.perm_append_singleton _ _
  have hids : ((stock hand (p.lend i now)).map (·.id)).Perm ((stock (i :: hand) p).map (·.id)) :=
    hperm.map (·.id)
  refine ⟨fun id => ?_, fun j hj => ?_, hids.nodup_iff.2 h.distinct,
    LoadTable.nodup_begin h.single i.id now, h.consistent.lent hoff, fun id => ?_⟩
  · refine (LoadTable.get?_begin _ _ _ _).trans ?_
    rw [due_lent h.consistent, h.entries id, if_congr hids.mem_iff rfl rfl]
    by_cases hid : id = i.id
    · have hmem : id ∈ (stock (i :: hand) p).map (·.id) := hid ▸ List.mem_cons_self
      rw [if_pos hid, if_pos hmem, if_pos hmem, hid, Function.update_self]
    · rw [if_neg hid, Function.update_of_ne hid]
  · rcases List.mem_cons.1 (hperm.mem_iff.1 hj) with rfl | hj
    · have huses := h.uses i List.mem_cons_self
      rw [Interpreter.lent_id, timesLent_lent, ← huses]
      rfl
    · have hne : i.id ≠ j.id := fun he => hnodup.1 (List.mem_map.2 ⟨j, hj, he.symm⟩)
      rw [timesLent_lent_of_ne hne]
      exact h.uses j (List.mem_cons_of_mem i hj)
  · show _ ↔ id ∈ (p.loans ++ [i.lent]).map (·.id)
    rw [List.map_append, List.mem_append, ← h.away, List.map_singleton, List.mem_singleton,
      Interpreter.lent_id]
    by_cases hid : id = i.id
    · rw [hid, since?_lent]
      exact iff_of_true rfl (.inr rfl)
    · rw [since?_lent_of_ne (Ne.symm hid), or_iff_left hid]

/-- **A loan ends**, and the interpreter is in hand. -/
theorem endLoan (h : Tallied d p hand) (hi : p.loan? id = some i) (now : Nat) :
    Tallied (.back id now :: d) (p.endLoan id now) (i :: hand) := by
  obtain ⟨hmem, rfl⟩ := loan?_eq_some hi
  obtain ⟨began, hs⟩ := Option.isSome_iff_exists.1 ((h.away i.id).2 (List.mem_map_of_mem hmem))
  have hperm : (stock (i :: hand) (p.endLoan i.id now)).Perm (stock hand p) := by
    have hout := perm_cons_filter h.nodup_loans hmem
    show (i :: (hand ++ (p.idle ++ p.loans.filter fun j => j.id != i.id))).Perm _
    rw [← List.append_assoc, stock, ← List.append_assoc]
    exact List.perm_middle.symm.trans (hout.symm.append_left _)
  have hids := hperm.map (·.id)
  refine ⟨fun id => ?_, fun j hj => h.uses j (hperm.mem_iff.1 hj), hids.nodup_iff.2 h.distinct,
    LoadTable.nodup_finish h.single i.id now, h.consistent.back hs, fun id => ?_⟩
  · refine (LoadTable.get?_finish _ _ _ _).trans ?_
    rw [due_back h.consistent hs, h.entries id, if_congr hids.mem_iff rfl rfl]
    by_cases hid : id = i.id
    · have hstock : id ∈ (stock hand p).map (·.id) := by
        rw [hid]
        exact List.mem_map_of_mem (List.mem_append_right _ (List.mem_append_right _ hmem))
      rw [if_pos hid, if_pos hstock, if_pos hstock, hid, Function.update_self]
    · rw [if_neg hid, Function.update_of_ne hid]
  · show _ ↔ id ∈ (p.loans.filter fun j => j.id != i.id).map (·.id)
    by_cases hid : id = i.id
    · rw [hid, since?_back]
      refine iff_of_false Bool.false_ne_true fun hin => ?_
      obtain ⟨j, hj, hjid⟩ := List.mem_map.1 hin
      exact bne_iff_ne.1 (List.mem_filter.1 hj).2 hjid
    · rw [since?_back_of_ne (Ne.symm hid), h.away]
      refine ⟨fun hin => ?_, fun hin => (List.filter_sublist.map _).subset hin⟩
      obtain ⟨j, hj, rfl⟩ := List.mem_map.1 hin
      exact List.mem_map_of_mem (List.mem_filter.2 ⟨hj, bne_iff_ne.2 hid⟩)

/-- A new interpreter comes to hand. -/
theorem takeMade (h : Tallied d p hand) (hnew : i.id ∉ (stock hand p).map (·.id))
    (hunlent : timesLent d i.id = 0) (hunused : i.useCount = 0) : Tallied d p (i :: hand) := by
  refine ⟨fun id => ?_, fun j hj => ?_, List.nodup_cons.2 ⟨hnew, h.distinct⟩, h.single,
    h.consistent, h.away⟩
  · rw [h.entries]
    by_cases hid : id = i.id
    · obtain rfl := hid
      rw [if_neg hnew, due, if_pos hunlent, ite_self]
    · exact if_congr (List.mem_cons.trans (or_iff_right hid)).symm rfl rfl
  · rcases List.mem_cons.1 hj with rfl | hj
    · rw [hunlent, hunused]
    · exact h.uses j hj

/-- An interpreter in hand may change, as long as it stays the same interpreter. -/
theorem changeHand (h : Tallied d p (i :: hand)) {j : Interpreter} (hid : j.id = i.id)
    (huses : j.useCount = i.useCount) : Tallied d p (j :: hand) := by
  have hids : (stock (j :: hand) p).map (·.id) = (stock (i :: hand) p).map (·.id) := by
    show j.id :: (stock hand p).map (·.id) = i.id :: (stock hand p).map (·.id)
    rw [hid]
  refine ⟨fun id => hids ▸ h.entries id, fun k hk => ?_, hids ▸ h.distinct, h.single, h.consistent,
    h.away⟩
  rcases List.mem_cons.1 hk with rfl | hk
  · rw [huses, hid]
    exact h.uses i List.mem_cons_self
  · exact h.uses k (List.mem_cons_of_mem i hk)

theorem addIdle (h : Tallied d p (i :: hand)) :
    Ensures (p.addIdle i) fun q => Tallied d q hand := by
  rw [Pool.addIdle]
  split
  · exact h.discard
  · refine ensures_pure (Tallied.same ?_ (SameStock.addPermit _))
    refine h.of_perm ?_ rfl rfl
    show (hand ++ ((p.idle ++ [i]) ++ p.loans)).Perm (i :: (hand ++ (p.idle ++ p.loans)))
    rw [List.append_assoc, ← List.append_assoc hand, ← List.append_assoc hand]
    exact List.perm_middle

/-! ### Requests -/

theorem takeIdle? (h : Tallied d p hand) (ht : p.takeIdle? = some (i, q)) :
    Tallied d q (i :: hand) := by
  rw [Pool.takeIdle?] at ht
  split at ht
  · cases ht
  · rename_i j hj
    obtain ⟨rfl, rfl⟩ := Prod.mk.inj (Option.some.inj ht)
    obtain ⟨hlt, hget⟩ := List.getElem?_eq_some_iff.1 hj
    have hperm : ([j] ++ p.idle.eraseIdx p.nextPlace).Perm p.idle := by
      rw [← hget]
      exact List.getElem_cons_eraseIdx_perm hlt
    exact h.unqueue hperm rfl rfl rfl

theorem checkOut (h : Tallied d p hand) :
    Ensures p.checkOut fun r => Tallied d r.2 (r.1.toList ++ hand) := by
  rw [Pool.checkOut]
  split
  · exact ensures_pure h
  · rename_i i q hq
    have ht := h.takeIdle? hq
    split
    · exact ht.discard.bind fun r hr => ensures_pure hr
    · exact ensures_pure ht

theorem checkOutAny (n : Nat) : ∀ {p : Pool}, Tallied d p hand →
    Ensures (Pool.checkOutAny n p) fun r => Tallied d r.2 (r.1.toList ++ hand) := by
  induction n with
  | zero => exact fun h => ensures_pure h
  | succ n ih =>
    intro p h
    rw [Pool.checkOutAny]
    split
    · exact ensures_pure h
    · rename_i q hq
      obtain ⟨k, -, rfl⟩ := takePermit?_eq_some hq
      refine (h.permits k).checkOut.bind fun r hr => ?_
      rcases r with ⟨_ | i, r⟩
      · exact ih hr
      · exact ensures_pure hr

end Tallied

/-- What the progress of a request adds to the history. -/
def Progress.events (now : Nat) : Progress → List LoanEvent
  | .lent id => [.lent id now]
  | _ => []

namespace Tallied

theorem serve (h : Tallied d p []) (key now : Nat) (waitedBefore : Bool) :
    Ensures (p.serve key now waitedBefore) fun r =>
      Tallied (Progress.events now r.1 ++ d) r.2 [] := by
  rw [Pool.serve]
  split
  · exact ensures_pure h
  · refine (h.checkOutAny p.permits).bind fun r hr => ?_
    rcases r with ⟨_ | i, r⟩
    · dsimp only
      cases hres : r.reserve? with
      | some q => exact ensures_pure ((hr.same (.reserve? hres)).of_eq rfl rfl rfl)
      | none => cases waitedBefore <;> exact ensures_pure (hr.of_eq rfl rfl rfl)
    · exact ensures_pure (hr.lend now)

theorem request (h : Tallied d p []) (key now : Nat) :
    Ensures (p.request key now) fun r => Tallied (Progress.events now r.1 ++ d) r.2 [] :=
  (h.of_eq rfl rfl rfl : Tallied d { p with
    counters := { p.counters with requests := p.counters.requests + 1 }
    recent := p.recent.record now } []).serve key now false

theorem resume (h : Tallied d p []) (key now : Nat) :
    Ensures (p.resume key now) fun r => Tallied (Progress.events now r.1 ++ d) r.2 [] := by
  rw [Pool.resume]
  refine (h.granted _).checkOut.bind fun r hr => ?_
  rcases r with ⟨_ | i, r⟩
  · exact serve hr key now true
  · exact ensures_pure (hr.lend now)

/-! ### Creations -/

/-- What came of a creation is new to the pool, and it may be lent out at once. -/
theorem collect (h : Tallied d p []) (c : Creation) {outcome : Except InterpreterError Interpreter}
    (hnew : ∀ i, outcome = .ok i →
      i.id ∉ (stock [] p).map (·.id) ∧ timesLent d i.id = 0 ∧ i.useCount = 0) (now : Nat) :
    Ensures (p.collect c outcome now) fun r =>
      Tallied ((r.1.elim [] fun served => Progress.events now served.2) ++ d) r.2 [] := by
  unfold Pool.collect
  cases c.purpose with
  | none =>
    cases outcome with
    | error e => exact ensures_pure (h.of_eq rfl rfl rfl)
    | ok i => exact (ensures_true _).bind fun _ _ => ensures_pure (h.of_eq rfl rfl rfl)
  | some purpose =>
    cases outcome with
    | error e => cases purpose <;> exact ensures_pure (h.of_eq rfl rfl rfl)
    | ok i =>
      obtain ⟨hnot, hunlent, hunused⟩ := hnew i rfl
      have hmade := ((h.takeMade hnot hunlent hunused).dropCreation c.id).counters
      cases purpose with
      | request key => exact ensures_pure ((hmade _).lend now)
      | replacement => exact (hmade _).addIdle.bind fun q hq => ensures_pure hq
      | growth => exact (hmade _).addIdle.bind fun q hq => ensures_pure hq

/-! ### Returns -/

theorem recycle (h : Tallied d p (i :: hand)) :
    Ensures (p.recycle i) fun q => Tallied d q hand :=
  (h.counters _).discard.bind fun q hq => ensures_pure (hq.same (.replace q))

theorem takeBack (h : Tallied d p hand) (hi : p.loan? id = some i) (now : Nat) :
    Ensures (p.takeBack i now) fun q => Tallied (.back id now :: d) q hand := by
  have hback := h.endLoan hi now
  obtain ⟨-, rfl⟩ := loan?_eq_some hi
  rw [Pool.takeBack]
  show Ensures (if (p.endLoan i.id now).closed then _ else _) _
  split
  · exact hback.discard
  · split
    · exact hback.recycle
    · refine i.ensures_reset.bind fun r hr => ?_
      cases hr with
      | failed e => exact hback.recycle
      | succeeded untainted =>
        exact (hback.changeHand rfl rfl : Tallied _ _
          (({ i with wasReset := true } : Interpreter).handedBack now :: hand)).addIdle

theorem giveBack (h : Tallied d p hand) (hi : p.loan? id = some i) (now : Nat) :
    Ensures (p.giveBack id now) fun q => Tallied (.back id now :: d) q hand := by
  rw [Pool.giveBack, hi]
  exact h.takeBack hi now

/-- What a borrower does is not a loan of its own. -/
theorem onLoan (h : Tallied d p hand) {use : Interpreter → Transition (Unit × Interpreter)}
    (hu : IsUse use) : Ensures (p.onLoan id use) fun r => Tallied d r.2 hand := by
  rw [Pool.onLoan]
  cases hi : p.loan? id with
  | none => exact ensures_pure h
  | some i =>
    obtain ⟨hmem, rfl⟩ := loan?_eq_some hi
    refine (hu i).bind fun r hr => ensures_pure ?_
    obtain ⟨executing, tainted, wasReset, hr⟩ := hr
    have hids : (p.loans.map fun other => if other.id == i.id then r.2 else other).map (·.id)
        = p.loans.map (·.id) := by
      rw [List.map_map]
      refine List.map_congr_left fun other _ => ?_
      rw [Function.comp_apply]
      split
      · rename_i he
        rw [hr]
        exact (beq_iff_eq.1 he).symm
      · rfl
    have hstock : (stock hand { p with
        loans := p.loans.map fun other => if other.id == i.id then r.2 else other }).map (·.id)
        = (stock hand p).map (·.id) := by
      simp only [stock, List.map_append, hids]
    refine ⟨fun id => hstock ▸ h.entries id, fun j hj => ?_, hstock ▸ h.distinct, h.single,
      h.consistent, fun id => hids ▸ h.away id⟩
    -- what the borrower leaves behind has the number and the uses of what he was lent
    obtain ⟨k, hk, hid, huses⟩ : ∃ k ∈ stock hand p, j.id = k.id ∧ j.useCount = k.useCount := by
      rcases List.mem_append.1 hj with hj | hj
      · exact ⟨j, List.mem_append_left _ hj, rfl, rfl⟩
      rcases List.mem_append.1 hj with hj | hj
      · exact ⟨j, List.mem_append_right _ (List.mem_append_left _ hj), rfl, rfl⟩
      obtain ⟨other, ho, rfl⟩ := List.mem_map.1 hj
      split
      · refine ⟨i, List.mem_append_right _ (List.mem_append_right _ hmem), ?_⟩
        rw [hr]
        exact ⟨rfl, rfl⟩
      · exact ⟨other, List.mem_append_right _ (List.mem_append_right _ ho), rfl, rfl⟩
    rw [huses, hid]
    exact h.uses k hk

/-! ### Sizes -/

theorem shrink (n : Nat) : ∀ {p : Pool}, Tallied d p hand →
    Ensures (p.shrink n) fun r => Tallied d r.2 hand := by
  induction n with
  | zero => exact fun h => ensures_pure h
  | succ n ih =>
    intro p h
    rw [Pool.shrink]
    split
    · exact ensures_pure h
    · split
      · exact ensures_pure h
      · rename_i q hq
        obtain ⟨k, -, rfl⟩ := takePermit?_eq_some hq
        split
        · exact ensures_pure (h.permits k)
        · rename_i i hlast
          have hperm : ([i] ++ p.idle.dropLast).Perm p.idle := by
            conv => rhs; rw [← List.dropLast_append_getLast? i hlast]
            exact (List.perm_append_singleton i _).symm
          have hout : Tallied d { p with
              permits := k, idle := p.idle.dropLast, available := lowered p.available 1 }
              (i :: hand) := h.unqueue hperm rfl rfl rfl
          exact (hout.counters _).discard.bind fun r hr =>
            (ih hr).bind fun s hs => ensures_pure hs

theorem sweep (h : Tallied d p hand) (now : Nat) :
    Ensures (p.sweep now) fun r => Tallied d r.2 hand := by
  have hcut := splitStale_cut (isStale p.config now) (if p.drained then 0 else p.permits) p.idle
  obtain ⟨out, kept, hs⟩ : ∃ out kept, splitStale (isStale p.config now)
    (if p.drained then 0 else p.permits) p.idle = (out, kept) := ⟨_, _, rfl⟩
  rw [hs] at hcut
  have hout : Tallied d { p with
      idle := kept, permits := p.permits - out.length,
      available := lowered p.available out.length } (out ++ hand) :=
    h.unqueue hcut.1 rfl rfl rfl
  rw [Pool.sweep]
  dsimp only
  rw [hs]
  exact (discardAll out (hout.counters _)).bind fun q hq => ensures_pure (hq.same (.refill _ q))

theorem drain (h : Tallied d p hand) : Ensures p.drain fun q => Tallied d q hand := by
  have hout : Tallied d { p with drained := true, idle := [], available := 0 } (p.idle ++ hand) :=
    h.unqueue (by rw [List.append_nil]) rfl rfl rfl
  exact (discardAll p.idle hout).bind fun q hq => ensures_pure (hq.of_eq rfl rfl rfl)

end Tallied

end Pool
end ScriptPool
