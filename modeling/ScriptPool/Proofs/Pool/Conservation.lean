import Mathlib.Algebra.GroupWithZero.Nat
import ScriptPool.Proofs.Pool.Closed
import ScriptPool.Proofs.Pool.MinSize

/-!
# What the counters say

A pool counts what has happened to it, and the counts have to add up.  Every interpreter that was
made is still there or was discarded, and every interpreter that an open pool has discarded was
discarded for one of the reasons that are counted: it was worn or could not be reset, the scaler did
not need it, or a sweep has evicted it.

## What is here

* `PoolCounters.Le` — no count is lower than before.
* `Ledger` — the counts agree with what is in the pool.  In the middle of a move, an interpreter may
  be in nobody's hands, and the reason for discarding it is sometimes counted before it is
  discarded; `hand` and `noted` say how many such interpreters there are.  There is one lemma for
  each operation.
* `Step.ledger` — **one move keeps the counts in order**, and lowers none.  It counts a request as
  waiting exactly if the request gets in line when it begins, and never again.
* `conservation_of_run` — what the counters say in every state of every run.

A closed pool discards what comes back to it without giving a reason.  So does any pool that finds
an idle interpreter marked as running a script; as long as borrowers do not break down, there is
none.
-/

set_option autoImplicit false

namespace ScriptPool

namespace PoolCounters

/-- The interpreters that were discarded for a reason that is counted. -/
def explained (c : PoolCounters) : Nat := c.recycled + c.evicted + c.scaleDowns

/-- The counters after some requests have begun, and some were found to have to wait. -/
def counting (c : PoolCounters) (requests waits : Nat) : PoolCounters :=
  { c with requests := c.requests + requests, waits := c.waits + waits }

/-- No count of the first is higher than in the second. -/
structure Le (c d : PoolCounters) : Prop where
  created : c.created ≤ d.created
  destroyed : c.destroyed ≤ d.destroyed
  recycled : c.recycled ≤ d.recycled
  creationFailures : c.creationFailures ≤ d.creationFailures
  waits : c.waits ≤ d.waits
  requests : c.requests ≤ d.requests
  prewarmed : c.prewarmed ≤ d.prewarmed
  scaleUps : c.scaleUps ≤ d.scaleUps
  scaleDowns : c.scaleDowns ≤ d.scaleDowns
  evicted : c.evicted ≤ d.evicted

namespace Le

theorem refl (c : PoolCounters) : Le c c := by constructor <;> exact Nat.le_refl _

theorem trans {c d e : PoolCounters} (h : Le c d) (h' : Le d e) : Le c e where
  created := Nat.le_trans h.created h'.created
  destroyed := Nat.le_trans h.destroyed h'.destroyed
  recycled := Nat.le_trans h.recycled h'.recycled
  creationFailures := Nat.le_trans h.creationFailures h'.creationFailures
  waits := Nat.le_trans h.waits h'.waits
  requests := Nat.le_trans h.requests h'.requests
  prewarmed := Nat.le_trans h.prewarmed h'.prewarmed
  scaleUps := Nat.le_trans h.scaleUps h'.scaleUps
  scaleDowns := Nat.le_trans h.scaleDowns h'.scaleDowns
  evicted := Nat.le_trans h.evicted h'.evicted

end Le

theorem le_counting (c : PoolCounters) (requests waits : Nat) : c.Le (c.counting requests waits) :=
  { Le.refl c with
    requests := Nat.le_add_right _ _
    waits := Nat.le_add_right _ _ }

end PoolCounters

namespace Pool

open Transition

/-- The counters of a pool agree with what is in it.  `start` are the counters at the beginning of a
move, with what is counted about requests; `hand` interpreters are neither idle nor on loan, and for
`noted` of them it is counted already why they are discarded.  The reasons are complete if borrowers
are `careful`. -/
structure Ledger (start : PoolCounters) (careful : Prop) (p : Pool) (hand noted : Nat) : Prop where
  /-- Every interpreter that was made is there or was discarded. -/
  conserved : p.counters.created = p.counters.destroyed + p.idle.length + p.loans.length + hand
  /-- There is a reason for everything that an open pool has discarded. -/
  explained : careful → p.closed = false → p.counters.explained = p.counters.destroyed + noted
  scaleUps : p.counters.scaleUps ≤ p.counters.created
  since : start.Le p.counters
  waits : p.counters.waits = start.waits
  requests : p.counters.requests = start.requests

variable {config : PoolConfig} {opened born : List Interpreter} {ms : List Move}
  {start : PoolCounters} {careful : Prop} {p q : Pool} {hand noted : Nat} {i : Interpreter}
  {m : Move}

theorem plan?_eq_some {purpose : Purpose} (h : p.plan? purpose = some q) :
    q = { p with total := p.total + 1, planned := p.planned ++ [purpose] } := by
  rw [plan?] at h
  split at h
  · cases h
  · obtain ⟨r, hr, rfl⟩ := Option.map_eq_some_iff.1 h
    rw [(reserve?_eq_some hr).2]

namespace Ledger

/-- It does not matter what was noted, where no reasons are asked for. -/
theorem renote (h : Ledger start careful p hand noted) {noted' : Nat}
    (hn : careful → p.closed = false → noted = noted') : Ledger start careful p hand noted' :=
  { h with explained := fun hc ho => hn hc ho ▸ h.explained hc ho }

/-! ## Interpreters -/

theorem discard (h : Ledger start careful p (hand + 1) (noted + 1)) (i : Interpreter) :
    Ensures (p.discard i) fun q => Ledger start careful q hand noted := by
  refine (ensures_discard p i).mono ?_
  rintro q rfl
  refine { h with conserved := ?_, explained := fun hc ho => ?_, since := ?_ }
  · have hconserved := h.conserved
    show p.counters.created
      = p.counters.destroyed + 1 + p.idle.length + p.loans.length + hand
    omega
  · have hexplained := h.explained hc ho
    show p.counters.explained = p.counters.destroyed + 1 + noted
    omega
  · exact { h.since with destroyed := Nat.le_succ_of_le h.since.destroyed }

theorem discardAll (l : List Interpreter) : ∀ {p : Pool},
    Ledger start careful p (hand + l.length) (noted + l.length) →
      Ensures (p.discardAll l) fun q => Ledger start careful q hand noted := by
  induction l with
  | nil => exact fun h => ensures_pure h
  | cons i l ih => exact fun h => (Ledger.discard h i).bind fun q hq => ih hq

theorem addPermit (h : Ledger start careful p hand noted) :
    Ledger start careful p.addPermit hand noted := by
  rw [Pool.addPermit]
  split <;> exact { h with }

theorem addIdle (h : Ledger start careful p (hand + 1) noted) (i : Interpreter) :
    Ensures (p.addIdle i) fun q => Ledger start careful q hand noted := by
  rw [Pool.addIdle]
  split
  · rename_i hclosed
    exact (h.renote fun _ ho => absurd (hclosed.symm.trans ho) Bool.false_ne_true.symm).discard i
  · have hpush : Ledger start careful
        { p with idle := p.idle ++ [i], available := p.available + 1 } hand noted := by
      refine { h with conserved := ?_ }
      have hconserved := h.conserved
      show p.counters.created
        = p.counters.destroyed + (p.idle ++ [i]).length + p.loans.length + hand
      rw [List.length_append, List.length_singleton]
      omega
    exact ensures_pure hpush.addPermit

/-- Interpreters go from the queue to the hand. -/
theorem unqueue (h : Ledger start careful p hand noted) {out kept : List Interpreter}
    (hlen : out.length + kept.length = p.idle.length) {permits available : Nat} {drained : Bool} :
    Ledger start careful { p with idle := kept, permits, available, drained }
      (hand + out.length) noted := by
  refine { h with conserved := ?_ }
  have hconserved := h.conserved
  show p.counters.created
    = p.counters.destroyed + kept.length + p.loans.length + (hand + out.length)
  omega

theorem takeIdle? (h : Ledger start careful p hand noted) (ht : p.takeIdle? = some (i, q)) :
    Ledger start careful q (hand + 1) noted := by
  rw [Pool.takeIdle?] at ht
  split at ht
  · cases ht
  · rename_i j hj
    obtain ⟨rfl, rfl⟩ := Prod.mk.inj (Option.some.inj ht)
    obtain ⟨hlt, -⟩ := List.getElem?_eq_some_iff.1 hj
    have hlen : [j].length + (p.idle.eraseIdx p.nextPlace).length = p.idle.length := by
      rw [List.length_singleton, List.length_eraseIdx_of_lt hlt]
      omega
    exact h.unqueue hlen

theorem takePermit? (h : Ledger start careful p hand noted) (ht : p.takePermit? = some q) :
    Ledger start careful q hand noted := by
  obtain ⟨n, -, rfl⟩ := takePermit?_eq_some ht
  exact { h with }

theorem lend (h : Ledger start careful p (hand + 1) noted) (i : Interpreter) (now : Nat) :
    Ledger start careful (p.lend i now) hand noted := by
  refine { h with conserved := ?_ }
  have hconserved := h.conserved
  show p.counters.created
    = p.counters.destroyed + p.idle.length + (p.loans ++ [i.lent]).length + hand
  rw [List.length_append, List.length_singleton]
  omega

theorem endLoan (h : Ledger start careful p hand noted) (hnodup : (p.loans.map (·.id)).Nodup)
    (hi : i ∈ p.loans) (now : Nat) :
    Ledger start careful (p.endLoan i.id now) (hand + 1) noted := by
  refine { h with conserved := ?_ }
  have hconserved := h.conserved
  have hlen := (perm_cons_filter hnodup hi).length_eq
  rw [List.length_cons] at hlen
  show p.counters.created = p.counters.destroyed + p.idle.length
    + (p.loans.filter fun j => j.id != i.id).length + (hand + 1)
  omega

theorem onLoan (h : Ledger start careful p hand noted) (id : Nat)
    (use : Interpreter → Transition (Unit × Interpreter)) :
    Ensures (p.onLoan id use) fun r => Ledger start careful r.2 hand noted := by
  rw [Pool.onLoan]
  split
  · exact ensures_pure h
  · refine (ensures_true _).bind fun r _ => ensures_pure { h with conserved := ?_ }
    show p.counters.created = p.counters.destroyed + p.idle.length
      + (p.loans.map fun other => if other.id == id then r.2 else other).length + hand
    rw [List.length_map]
    exact h.conserved

/-! ## Creations -/

theorem plan? (h : Ledger start careful p hand noted) {purpose : Purpose}
    (hp : p.plan? purpose = some q) : Ledger start careful q hand noted := by
  rw [plan?_eq_some hp]
  exact { h with }

theorem replace (h : Ledger start careful p hand noted) :
    Ledger start careful p.replace hand noted := by
  rw [Pool.replace]
  cases hp : p.plan? .replacement with
  | none => exact h
  | some q => exact h.plan? hp

theorem refill (n : Nat) : ∀ {p : Pool}, Ledger start careful p hand noted →
    Ledger start careful (Pool.refill n p) hand noted := by
  induction n with
  | zero => exact fun h => h
  | succ n ih =>
    intro p h
    rw [Pool.refill]
    cases hp : p.plan? .replacement with
    | none => exact h
    | some q => exact ih (h.plan? hp)

theorem grow (n : Nat) : ∀ {p : Pool}, Ledger start careful p hand noted →
    Ledger start careful (p.grow n).2 hand noted := by
  induction n with
  | zero => exact fun h => h
  | succ n ih =>
    intro p h
    rw [Pool.grow]
    cases hp : p.plan? .growth with
    | none => exact h
    | some q => exact ih (h.plan? hp)

/-- An interpreter that has been made is in hand. -/
theorem noteCreated (h : Ledger start careful p hand noted) :
    Ledger start careful p.noteCreated (hand + 1) noted := by
  refine { h with conserved := ?_, scaleUps := ?_, since := ?_ }
  · exact congrArg (· + 1) h.conserved
  · exact Nat.le_succ_of_le h.scaleUps
  · exact { h.since with created := Nat.le_succ_of_le h.since.created }

theorem noteFailure (h : Ledger start careful p hand noted) :
    Ledger start careful p.noteFailure hand noted :=
  { h with
    since := { h.since with
      creationFailures := Nat.le_succ_of_le h.since.creationFailures } }

/-- An interpreter that has been made for the scaler. -/
theorem noteScaleUp (h : Ledger start careful p hand noted) :
    Ledger start careful { p.noteCreated with counters := { p.noteCreated.counters with
      scaleUps := p.noteCreated.counters.scaleUps + 1 } } (hand + 1) noted := by
  have hmade := h.noteCreated
  refine { hmade with scaleUps := Nat.succ_le_succ h.scaleUps, since := ?_ }
  exact { hmade.since with scaleUps := Nat.le_succ_of_le hmade.since.scaleUps }

theorem collect (h : Ledger start careful p hand noted) (c : Creation)
    (outcome : Except InterpreterError Interpreter) (now : Nat) :
    Ensures (p.collect c outcome now) fun r => Ledger start careful r.2 hand noted := by
  have hdrop : Ledger start careful (p.dropCreation c.id) hand noted := { h with }
  unfold Pool.collect
  cases c.purpose with
  | none =>
    cases outcome with
    | error e => exact ensures_pure hdrop
    | ok i => exact (ensures_true _).bind fun _ _ => ensures_pure hdrop
  | some purpose =>
    cases outcome with
    | error e => cases purpose <;> exact ensures_pure hdrop.noteFailure
    | ok i =>
      cases purpose with
      | request key => exact ensures_pure (hdrop.noteCreated.lend i now)
      | replacement =>
        exact (hdrop.noteCreated.addIdle i).bind fun q hq => ensures_pure hq
      | growth => exact (hdrop.noteScaleUp.addIdle i).bind fun q hq => ensures_pure hq

/-! ## Returns -/

theorem recycle (h : Ledger start careful p (hand + 1) noted) (i : Interpreter) :
    Ensures (p.recycle i) fun q => Ledger start careful q hand noted := by
  have hnoted : Ledger start careful
      { p with counters := { p.counters with recycled := p.counters.recycled + 1 } }
      (hand + 1) (noted + 1) := by
    refine { h with explained := fun hc ho => ?_, since := ?_ }
    · have hexplained := h.explained hc ho
      simp only [PoolCounters.explained] at hexplained ⊢
      omega
    · exact { h.since with recycled := Nat.le_succ_of_le h.since.recycled }
  exact (hnoted.discard i).bind fun q hq => ensures_pure hq.replace

theorem takeBack (h : Ledger start careful p hand noted) (hnodup : (p.loans.map (·.id)).Nodup)
    (hi : i ∈ p.loans) (now : Nat) :
    Ensures (p.takeBack i now) fun q => Ledger start careful q hand noted := by
  have hback := h.endLoan hnodup hi now
  rw [Pool.takeBack]
  show Ensures (if (p.endLoan i.id now).closed then _ else _) _
  split
  · rename_i hclosed
    exact (hback.renote fun _ ho =>
      absurd (hclosed.symm.trans ho) Bool.false_ne_true.symm).discard i
  · split
    · exact hback.recycle i
    · refine (ensures_true _).bind fun r _ => ?_
      rcases r with ⟨_ | _, j⟩
      · exact hback.recycle j
      · exact hback.addIdle _

/-! ## Sizes -/

theorem shrink (n : Nat) : ∀ {p : Pool}, Ledger start careful p hand noted →
    Ensures (p.shrink n) fun r => Ledger start careful r.2 hand noted := by
  induction n with
  | zero => exact fun h => ensures_pure h
  | succ n ih =>
    intro p h
    rw [Pool.shrink]
    split
    · exact ensures_pure h
    · split
      · exact ensures_pure h
      · rename_i q hq
        have ht := h.takePermit? hq
        split
        · exact ensures_pure ht
        · rename_i i hlast
          have hlen : [i].length + q.idle.dropLast.length = q.idle.length := by
            have hpos := List.length_pos_of_mem (List.mem_of_getLast? hlast)
            rw [List.length_singleton, List.length_dropLast]
            omega
          have hout : Ledger start careful { q with
              idle := q.idle.dropLast, available := lowered q.available 1 } (hand + 1) noted :=
            ht.unqueue hlen
          have hnoted : Ledger start careful { q with
              idle := q.idle.dropLast, available := lowered q.available 1
              counters := { q.counters with scaleDowns := q.counters.scaleDowns + 1 } }
              (hand + 1) (noted + 1) := by
            refine { hout with explained := fun hc ho => ?_, since := ?_ }
            · exact congrArg (· + 1) (hout.explained hc ho)
            · exact { hout.since with scaleDowns := Nat.le_succ_of_le hout.since.scaleDowns }
          exact (hnoted.discard i).bind fun r hr => (ih hr).bind fun s hs => ensures_pure hs

theorem sweep (h : Ledger start careful p hand noted) (now : Nat) :
    Ensures (p.sweep now) fun r => Ledger start careful r.2 hand noted := by
  rw [Pool.sweep]
  dsimp only
  have hcut := splitStale_cut (isStale p.config now) (if p.drained then 0 else p.permits) p.idle
  generalize splitStale (isStale p.config now) (if p.drained then 0 else p.permits) p.idle = cut
    at hcut
  obtain ⟨out, kept⟩ := cut
  have hlen := hcut.1.length_eq
  rw [List.length_append] at hlen
  have hout : Ledger start careful { p with
      idle := kept, permits := p.permits - out.length,
      available := lowered p.available out.length } (hand + out.length) noted := h.unqueue hlen
  have hnoted : Ledger start careful { p with
      idle := kept, permits := p.permits - out.length,
      available := lowered p.available out.length
      counters := { p.counters with evicted := p.counters.evicted + out.length } }
      (hand + out.length) (noted + out.length) := by
    refine { hout with explained := fun hc ho => ?_, since := ?_ }
    · have hexplained := h.explained hc ho
      simp only [PoolCounters.explained] at hexplained ⊢
      omega
    · exact { hout.since with evicted := Nat.le_add_right_of_le hout.since.evicted }
  exact (hnoted.discardAll out).bind fun q hq => ensures_pure (hq.refill _)

theorem drain (h : Ledger start careful p hand noted) (hclosed : p.closed = true) :
    Ensures p.drain fun q => Ledger start careful q hand noted := by
  have hout : Ledger start careful { p with drained := true, idle := [], available := 0 }
      (hand + p.idle.length) noted := h.unqueue (Nat.add_zero _)
  have hnoted : Ledger start careful { p with drained := true, idle := [], available := 0 }
      (hand + p.idle.length) (noted + p.idle.length) :=
    hout.renote fun _ ho => absurd (hclosed.symm.trans ho) Bool.false_ne_true.symm
  exact (hnoted.discardAll p.idle).bind fun q hq => ensures_pure { hq with }

/-! ## Requests -/

/-- An interpreter that is found to be marked as running a script is discarded without a reason. -/
theorem checkOut (h : Ledger start careful p hand noted)
    (hrest : careful → ∀ i ∈ p.idle, i.executing = false) :
    Ensures p.checkOut fun r => match r.1 with
      | some _ => Ledger start careful r.2 (hand + 1) noted
      | none => Ledger start careful r.2 hand noted := by
  rw [Pool.checkOut]
  split
  · exact ensures_pure h
  · rename_i i q hq
    have ht := h.takeIdle? hq
    split
    · rename_i hexec
      refine Ensures.bind (Ledger.discard (ht.renote fun hc _ => ?_) i) fun r hr => ensures_pure hr
      exact absurd (hexec.symm.trans (hrest hc i (receives_takeIdle? hq).1)) Bool.false_ne_true.symm
    · exact ensures_pure ht

theorem checkOutAny (n : Nat) : ∀ {p : Pool}, Ledger start careful p hand noted →
    (careful → ∀ i ∈ p.idle, i.executing = false) →
    Ensures (Pool.checkOutAny n p) fun r => match r.1 with
      | some _ => Ledger start careful r.2 (hand + 1) noted
      | none => Ledger start careful r.2 hand noted := by
  induction n with
  | zero => exact fun h _ => ensures_pure h
  | succ n ih =>
    intro p h hrest
    rw [Pool.checkOutAny]
    split
    · exact ensures_pure h
    · rename_i q hq
      obtain ⟨k, -, rfl⟩ := takePermit?_eq_some hq
      have hrest' : careful → ∀ i ∈ ({ p with permits := k } : Pool).idle, i.executing = false :=
        hrest
      refine (((h.takePermit? hq).checkOut hrest').and (receives_checkOut _)).bind fun r hr => ?_
      obtain ⟨hr, hrec, -⟩ := hr
      rcases r with ⟨_ | i, r⟩
      · exact ih hr fun hc i hi => hrest' hc i (hrec.idle_of_nil hi)
      · exact ensures_pure hr


/-- A request is found to have to wait. -/
theorem noteWait (h : Ledger start careful p hand noted) :
    Ledger (start.counting 0 1) careful p.noteWait hand noted :=
  { h with
    since := { h.since with waits := Nat.succ_le_succ h.since.waits }
    waits := congrArg (· + 1) h.waits }

/-- Serving a request counts it as waiting if it gets in line for the first time. -/
theorem serve (h : Ledger start careful p 0 0)
    (hrest : careful → ∀ i ∈ p.idle, i.executing = false) {key : Nat} (hkey : key ∉ p.waiters)
    (now : Nat) (waitedBefore : Bool) :
    Ensures (p.serve key now waitedBefore) fun r =>
      Ledger (start.counting 0 (if waitedBefore = false ∧ key ∈ r.2.waiters then 1 else 0))
        careful r.2 0 0 := by
  have hnot : ∀ q : Pool, q.waiters.Sublist p.waiters → Ledger start careful q 0 0 →
      Ledger (start.counting 0 (if waitedBefore = false ∧ key ∈ q.waiters then 1 else 0))
        careful q 0 0 := fun q hsub hq => by
    rw [if_neg fun hin => hkey (hsub.subset hin.2)]
    exact hq
  rw [Pool.serve]
  split
  · exact ensures_pure (hnot p (List.Sublist.refl _) h)
  · refine ((h.checkOutAny p.permits hrest).and (receives_checkOutAny p.permits p)).bind
      fun r hr => ?_
    obtain ⟨hr, hrec, -⟩ := hr
    rcases r with ⟨_ | i, r⟩
    · dsimp only
      cases hres : r.reserve? with
      | some q =>
        refine ensures_pure (hnot _ ?_ ?_) <;> rw [(reserve?_eq_some hres).2]
        · exact hrec.waiters
        · exact { hr with }
      | none =>
        have hin : key ∈ r.waiters ++ [key] := List.mem_append_right _ List.mem_cons_self
        cases waitedBefore with
        | true =>
          refine ensures_pure ?_
          rw [if_neg fun hw => Bool.false_ne_true.symm hw.1]
          exact { hr with }
        | false =>
          refine ensures_pure ?_
          rw [if_pos ⟨rfl, hin⟩]
          exact { hr.noteWait with }
    · exact ensures_pure (hnot _ hrec.waiters (hr.lend i now))

end Ledger

/-! ## Moves

What is counted about requests depends on what a move finds, so it is not said by the move alone: a
request counts as waiting if it gets in line at its first turn. -/

/-- The requests that a move begins. -/
def Move.requests : Move → Nat
  | .request _ _ => 1
  | _ => 0

/-- The requests that a move counts as waiting: one that begins and gets in line. -/
def Move.waits (q : Pool) : Move → Nat
  | .request key _ => if key ∈ q.waiters then 1 else 0
  | _ => 0

theorem Ledger.request (h : Ledger p.counters careful p 0 0)
    (hrest : careful → ∀ i ∈ p.idle, i.executing = false) {key : Nat} (hkey : key ∉ p.keys)
    (now : Nat) : Ensures (p.request key now) fun r =>
      Ledger (p.counters.counting 1 (if key ∈ r.2.waiters then 1 else 0)) careful r.2 0 0 := by
  have hbegun : Ledger (p.counters.counting 1 0) careful { p with
      counters := { p.counters with requests := p.counters.requests + 1 }
      recent := p.recent.record now } 0 0 :=
    { h with since := PoolCounters.Le.refl _, waits := rfl, requests := rfl }
  have hnot : key ∉ p.waiters := fun hin =>
    hkey (List.mem_append_left _ (List.mem_append_left _ hin))
  refine (Ledger.serve hbegun ?_ ?_ now false).mono fun r hr => ?_
  · exact hrest
  · exact hnot
  · simp only [true_and] at hr
    exact hr

theorem Ledger.resume (h : Ledger p.counters careful p 0 0)
    (hrest : careful → ∀ i ∈ p.idle, i.executing = false) {key : Nat} (hb : Balanced born p 0 0 [])
    (hkey : key ∈ p.granted) (now : Nat) :
    Ensures (p.resume key now) fun r => Ledger p.counters careful r.2 0 0 := by
  have hbegun : Ledger p.counters careful { p with granted := p.granted.erase key } 0 0 :=
    { h with }
  have hnot : key ∉ p.waiters := fun hin => hb.not_mem_keys_ungrant hkey
    (List.mem_append_left _ (List.mem_append_left _ hin))
  have hrest' : careful → ∀ i ∈ ({ p with granted := p.granted.erase key } : Pool).idle,
      i.executing = false := hrest
  rw [Pool.resume]
  refine ((hbegun.checkOut hrest').and ((receives_checkOut _).and (keeps_checkOut _))).bind
    fun r hr => ?_
  obtain ⟨hr, ⟨hrec, -⟩, hkeeps⟩ := hr
  rcases r with ⟨_ | i, r⟩
  · refine (Ledger.serve hr (fun hc i hi => hrest' hc i (hrec.idle_of_nil hi)) ?_ now true).mono
      fun s hs => ?_
    · rw [hkeeps.waiters]
      exact hnot
    · rw [if_neg fun hw => Bool.false_ne_true.symm hw.1] at hs
      exact hs
  · exact ensures_pure (hr.lend i now)

theorem Ledger.giveUp (h : Ledger start careful p hand noted) (key : Nat) :
    Ledger start careful (p.giveUp key) hand noted := by
  rw [Pool.giveUp]
  split
  · have hungrant : Ledger start careful { p with granted := p.granted.erase key } hand noted :=
      { h with }
    exact hungrant.addPermit
  · split <;> exact { h with }

/-- **One move keeps the counts in order.** -/
theorem Move.ledger (hb : Balanced born p 0 0 []) (ha : m.Allowed p)
    (hrest : careful → ∀ i ∈ p.idle, i.executing = false) (h : Ledger p.counters careful p 0 0) :
    Ensures (m.apply p) fun q =>
      Ledger (p.counters.counting m.requests (m.waits q)) careful q 0 0 := by
  cases m with
  | request key now => exact (h.request hrest ha now).snd
  | resume key now => exact (h.resume hrest hb ha now).snd
  | turnAway key => exact ensures_pure { h with }
  | giveUp key => exact ensures_pure (h.giveUp key)
  | begin purpose => exact ensures_pure { h with }
  | endCreation id outcome => exact ensures_pure { h with }
  | collect c outcome now => exact (h.collect c outcome now).snd
  | giveBack id now =>
    obtain ⟨i, hi⟩ := exists_loan? ha
    show Ensures (p.giveBack id now) _
    rw [Pool.giveBack, hi]
    exact h.takeBack hb.nodup_loans (loan?_eq_some hi).1 now
  | onLoan id use => exact (h.onLoan id use).snd
  | grow count => exact ensures_pure (h.grow count)
  | shrink count => exact (h.shrink count).snd
  | sweep now => exact (h.sweep now).snd
  | look now => exact ensures_pure { h with }
  | notePrewarmed =>
    refine ensures_pure { h with since := ?_ }
    exact { h.since with prewarmed := Nat.le_succ_of_le h.since.prewarmed }
  | scratch change => exact ensures_pure { h with }
  | close =>
    exact ensures_pure { h with explained := fun _ ho => absurd ho Bool.false_ne_true.symm }
  | drain => exact h.drain ha.1

/-! ## Runs -/

theorem Ledger.mono (h : Ledger start careful p hand noted) {careful' : Prop}
    (hc : careful' → careful) : Ledger start careful' p hand noted :=
  { h with explained := fun hc' => h.explained (hc hc') }

/-- The counters at the end of one move are those at the beginning of the next. -/
theorem Ledger.restart (h : Ledger start careful p hand noted) :
    Ledger p.counters careful p hand noted :=
  { h with since := PoolCounters.Le.refl _, waits := rfl, requests := rfl }

theorem Opening.ledger {made : List Interpreter} (h : Opening config made p) :
    Ledger {} careful p 0 0 := by
  induction h with
  | empty h =>
    obtain ⟨memory, rfl⟩ := ofConfig_eq_ok h
    exact ⟨rfl, fun _ _ => rfl, Nat.le_refl _, PoolCounters.Le.refl _, rfl, rfl⟩
  | @more made p q p' i now w w' _ _ slot _ r ih =>
    have hbegun : Ledger {} careful (q.begin .replacement) 0 0 := by
      rw [(reserve?_eq_some slot).2]
      exact { ih with }
    exact (hbegun.collect _ (.ok i) now).of_run r

/-- Interpreters are ready when they are made, and borrowers do not break down. -/
def Careful (opened : List Interpreter) (ms : List Move) : Prop :=
  (∀ i ∈ madeIn opened ms, i.Ready) ∧ Dealt ms

theorem Careful.tail (h : Careful opened (m :: ms)) : Careful opened ms :=
  ⟨fun i hi => h.1 i (mem_madeIn_cons hi), h.2.tail⟩

/-- **The counts are in order in every state of every run.** -/
theorem Run.ledger (h : Run config opened ms p) :
    Ledger p.counters (Careful opened ms) p 0 0 := by
  induction h with
  | start h => exact h.1.ledger.restart
  | @step ms p q m hrun s ih =>
    obtain ⟨ha, w, w', happly⟩ := s
    have hrest : Careful opened (m :: ms) → ∀ i ∈ p.idle, i.executing = false := fun hc =>
      hrun.resting hc.tail.1 hc.tail.2
    exact ((Move.ledger hrun.balanced ha hrest (ih.mono Careful.tail)).of_run happly).restart

/-- What a move counts depends on it and on the state that it starts in alone. -/
theorem Step.ledger (h : Run config opened ms p) (s : Step p m q) :
    Ledger (p.counters.counting m.requests (m.waits q)) False q 0 0 := by
  obtain ⟨ha, w, w', happly⟩ := s
  exact (Move.ledger h.balanced ha False.elim (h.ledger.mono False.elim)).of_run happly

theorem Move.waits_le_requests (m : Move) (q : Pool) : m.waits q ≤ m.requests := by
  cases m with
  | request key now =>
    rw [Move.waits]
    split
    · exact Nat.le_refl _
    · exact Nat.zero_le _
  | _ => exact Nat.le_refl _

theorem Run.requests (h : Run config opened ms p) :
    p.counters.requests = (ms.map Move.requests).sum ∧ p.counters.waits ≤ p.counters.requests := by
  induction h with
  | start h =>
    have hopened : Ledger {} False _ 0 0 := h.1.ledger
    rw [hopened.waits, hopened.requests]
    exact ⟨rfl, Nat.le_refl _⟩
  | @step ms p q m hrun s ih =>
    obtain ⟨hsum, hle⟩ := ih
    have hq := s.ledger hrun
    have hmove := m.waits_le_requests q
    rw [hq.waits, hq.requests, List.map_cons, List.sum_cons]
    simp only [PoolCounters.counting]
    omega

/-- **What the counters of a pool say**, at any moment of any run.  Every interpreter that was made
is idle, on loan or discarded; between two moves none is anywhere else.  If interpreters are ready
when they are made and borrowers do not break down, then every interpreter that was discarded while
the pool is open is counted with a reason.  Those made for the scaler are among those that were
made.  Every request is counted once when it begins, and at most once as waiting: when it begins and
gets in line, and not when it goes on.  And no move lowers a count. -/
theorem conservation_of_run (h : Run config opened ms p) :
    p.counters.created = p.counters.destroyed + p.idle.length + p.loans.length
    ∧ ((∀ i ∈ madeIn opened ms, i.Ready) → Dealt ms → p.closed = false →
      p.counters.destroyed = p.counters.recycled + p.counters.evicted + p.counters.scaleDowns)
    ∧ p.counters.scaleUps ≤ p.counters.created
    ∧ p.counters.requests = (ms.map Move.requests).sum ∧ p.counters.waits ≤ p.counters.requests
    ∧ ∀ m q, Step p m q →
      p.counters.Le q.counters ∧ q.counters.waits = p.counters.waits + m.waits q := by
  have hp := h.ledger
  obtain ⟨hsum, hle⟩ := h.requests
  refine ⟨hp.conserved, fun hready hdealt hopen => ?_, hp.scaleUps, hsum, hle, fun m q s => ?_⟩
  · exact (hp.explained ⟨hready, hdealt⟩ hopen).symm
  · have hq := s.ledger h
    exact ⟨(p.counters.le_counting _ _).trans hq.since, hq.waits⟩

/-- The only interpreter is lent to the first of two requests and the second one waits for it.  It
is granted the permit when the interpreter comes back, but is given up before it uses it, and the
interpreter is evicted. -/
theorem conservation_of_run_evicted : ∃ ms p, Run single [] ms p ∧ p.closed = false
    ∧ p.counters = { created := 1, destroyed := 1, evicted := 1, requests := 2, waits := 1 }
    ∧ p.counters.created = p.counters.destroyed + p.idle.length + p.loans.length
    ∧ p.counters.destroyed = p.counters.recycled + p.counters.evicted + p.counters.scaleDowns
    ∧ p.counters.scaleUps ≤ p.counters.created
    ∧ p.counters.requests = (ms.map Move.requests).sum ∧ p.counters.waits ≤ p.counters.requests
    ∧ ∀ m q, Step p m q →
      p.counters.Le q.counters ∧ q.counters.waits = p.counters.waits + m.waits q := by
  have h₀ : Run single [] [] _ := .start ⟨.empty rfl, Nat.zero_le _⟩
  have h₁ := h₀.step (m := .request 7 0) ⟨List.not_mem_nil, default, _, rfl⟩
  have h₂ := h₁.step (m := .endCreation 1 (.ok firstMade))
    ⟨⟨⟨_, List.mem_cons_self, rfl, rfl⟩, fun i hi => by cases hi; rfl⟩, default, _, rfl⟩
  have h₃ := h₂.step (m := .collect
    { id := 1, purpose := some (.request 7), outcome := some (.ok firstMade) } (.ok firstMade) 0)
    ⟨⟨List.mem_cons_self, rfl⟩, default, _, rfl⟩
  have h₄ := h₃.step (m := .request 8 0) ⟨List.not_mem_nil, default, _, rfl⟩
  have h₅ := h₄.step (m := .giveBack 1 0) ⟨List.mem_cons_self, default, _, rfl⟩
  have h₆ := h₅.step (m := .giveUp 8) ⟨List.mem_cons_self, default, _, rfl⟩
  have h₇ := h₆.step (m := .sweep (10 ^ 18)) ⟨trivial, default, _, rfl⟩
  have hcounts := conservation_of_run h₇
  refine ⟨_, _, h₇, rfl, rfl, hcounts.1, hcounts.2.1 ?_ ?_ rfl, hcounts.2.2⟩
  · exact fun i hi => by rcases hi with _ | ⟨_, ⟨⟩⟩; exact ⟨rfl, rfl, rfl⟩
  · exact fun id use hm => by simp at hm

end Pool
end ScriptPool
