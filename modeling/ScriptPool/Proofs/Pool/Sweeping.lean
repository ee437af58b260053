import ScriptPool.Proofs.Pool.MinSize

/-!
# Sweeping

A sweep goes through the queue once.  It takes out the stale interpreters that it comes across, one
for every free permit; when it comes to a stale one and no permit is left, it goes no further, as
all idle interpreters from there on are promised to requests or stay because nobody may touch them.
Afterwards it plans replacements up to the minimal size.

So what a sweep evicts does not depend on how it goes through the queue: it is the stale ones at the
front, as many as there are permits.  Everything else about the pool follows from that list.

## What is here

* `overdue` — what a sweep evicts.
* `relieved` and `planning` — a pool after idle interpreters were destroyed, and after creations
  were planned.  Shrinking and growing come to the same (`Proofs/Pool/Scaling`).
* `splitStale_fst`, `splitStale_sublist`, `eq_filter_of_cut` — the walk through the queue takes out
  that list and keeps the others in their order.
* `run_discardAll`, `refill_eq` — what the two loops after it come to.
* `sweep_of_run` — **a sweep of an open pool**, as an equation for the pool and the world after it.
-/

set_option autoImplicit false

namespace ScriptPool

/-- The scopes of several guest states end, one after the other. -/
def World.endScopes (w : World) (states : List Nat) : World := states.foldl World.endScope w

namespace Pool

/-! ## Pools with fewer interpreters, and with more on their way -/

/-- Is an interpreter one of these? -/
def isAmong (l : List Interpreter) (id : Nat) : Bool := (l.map (·.id)).contains id

/-- A pool after idle interpreters were destroyed, each with its permit and its slot; `kept` are
those that stay in the queue. -/
def relieved (p : Pool) (out kept : List Interpreter) : Pool :=
  { p with
    idle := kept
    available := p.available - out.length
    permits := p.permits - out.length
    total := p.total - out.length
    loads := p.loads.filter fun entry => !isAmong out entry.1
    counters := { p.counters with destroyed := p.counters.destroyed + out.length } }

/-- A pool after so many creations were planned, each in a slot of its own. -/
def planning (p : Pool) (purpose : Purpose) (n : Nat) : Pool :=
  { p with total := p.total + n, planned := p.planned ++ List.replicate n purpose }

/-- Counts idle interpreters that a sweep has discarded. -/
def noteEvicted (p : Pool) (n : Nat) : Pool :=
  { p with counters := { p.counters with evicted := p.counters.evicted + n } }

/-- What a sweep evicts: the stale interpreters at the front of the queue, one for each free permit.
-/
def overdue (p : Pool) (now : Nat) : List Interpreter :=
  (p.idle.filter (isStale p.config now)).take p.permits

/-- What a sweep leaves in the queue. -/
def spared (p : Pool) (now : Nat) : List Interpreter :=
  p.idle.filter fun i => !isAmong (p.overdue now) i.id

variable {born : List Interpreter} {p q : Pool} {w : World}

@[simp] theorem planning_zero (p : Pool) (purpose : Purpose) : p.planning purpose 0 = p := by
  simp [planning]

theorem planning_planning (p : Pool) (purpose : Purpose) (m n : Nat) :
    (p.planning purpose m).planning purpose n = p.planning purpose (m + n) := by
  simp [planning, Nat.add_assoc]

/-! ## Through the queue

Two loops are compared with two lists: the interpreters that are taken out, in order, and those that
stay.  Since each interpreter has a number of its own, the one list determines the other. -/

/-- **The stale interpreters that are taken out are those at the front of the queue.** -/
theorem splitStale_fst (stale : Interpreter → Bool) (n : Nat) (l : List Interpreter) :
    (splitStale stale n l).1 = (l.filter stale).take n := by
  induction l generalizing n with
  | nil => exact List.take_nil.symm
  | cons i l ih =>
    unfold splitStale
    split
    · rename_i hi
      rw [List.filter_cons_of_pos hi]
      cases n with
      | zero => rfl
      | succ n => exact congrArg (List.cons i) (ih n)
    · rename_i hi
      rw [List.filter_cons_of_neg hi]
      exact ih n

/-- The others keep their order. -/
theorem splitStale_sublist (stale : Interpreter → Bool) (n : Nat) (l : List Interpreter) :
    (splitStale stale n l).2.Sublist l := by
  induction l generalizing n with
  | nil => exact .slnil
  | cons i l ih =>
    unfold splitStale
    split
    · cases n with
      | zero => exact .refl _
      | succ n => exact (ih n).cons i
    · exact (ih n).cons_cons i

/-- Where the numbers of a list differ, what is left of it in order is determined by what was taken
out. -/
theorem eq_filter_of_cut {l out kept : List Interpreter} (hl : (l.map (·.id)).Nodup)
    (hperm : (out ++ kept).Perm l) (hkept : kept.Sublist l) :
    kept = l.filter fun i => !isAmong out i.id := by
  have hnodup : ((out ++ kept).map (·.id)).Nodup := (hperm.map _).nodup_iff.2 hl
  rw [List.map_append, List.nodup_append] at hnodup
  have hin : ∀ i ∈ kept, (!isAmong out i.id) = true := fun i hi => by
    rw [isAmong, Bool.not_eq_true', Bool.eq_false_iff, Ne, List.contains_iff_mem]
    exact fun ho => hnodup.2.2 _ ho _ (List.mem_map_of_mem hi) rfl
  have hout : ∀ i ∈ out, ¬ (!isAmong out i.id) = true := fun i hi => by
    rw [isAmong, Bool.not_eq_true', Bool.not_eq_false, List.contains_iff_mem]
    exact List.mem_map_of_mem hi
  -- both lists are in order, and there are as many in one as in the other
  have hsub : kept.Sublist (l.filter fun i => !isAmong out i.id) := by
    have hfilter := hkept.filter fun i => !isAmong out i.id
    rwa [List.filter_eq_self.2 hin] at hfilter
  refine hsub.eq_of_length ?_
  rw [← (hperm.filter _).length_eq, List.filter_append, List.filter_eq_nil_iff.2 hout,
    List.nil_append, List.filter_eq_self.2 hin]

/-! ## The loops after it -/

theorem foldl_remove (out : List Interpreter) : ∀ t : LoadTable,
    out.foldl (fun t i => t.remove i.id) t = t.filter fun entry => !isAmong out entry.1 := by
  induction out with
  | nil => exact fun t => (List.filter_eq_self.2 fun _ _ => rfl).symm
  | cons i out ih =>
    intro t
    rw [List.foldl_cons, ih, LoadTable.remove, List.filter_filter]
    refine List.filter_congr fun entry _ => ?_
    simp only [isAmong, List.map_cons, List.contains_cons, Bool.not_or, bne]
    exact Bool.and_comm _ _

/-- Several interpreters are discarded. -/
theorem run_discardAll (out : List Interpreter) : ∀ {p : Pool} {w : World}, out.length ≤ p.total →
    (p.discardAll out).run w
      = ({ p with
            loads := out.foldl (fun t i => t.remove i.id) p.loads
            total := p.total - out.length
            counters := { p.counters with destroyed := p.counters.destroyed + out.length } },
          w.endScopes (out.map (·.state))) := by
  induction out with
  | nil => exact fun _ => rfl
  | cons i out ih =>
    intro p w hle
    rw [List.length_cons] at hle
    have hlowered : lowered p.total 1 = p.total - 1 := lowered_of_le (by omega)
    have hone : (p.discardAll (i :: out)).run w
        = (({ p with
              loads := p.loads.remove i.id
              total := lowered p.total 1
              counters := { p.counters with destroyed := p.counters.destroyed + 1 } } :
            Pool).discardAll out).run (w.endScope i.state) := rfl
    rw [hone, hlowered, ih (by show out.length ≤ p.total - 1; omega)]
    simp only [List.length_cons, Nat.sub_sub, Nat.add_assoc, Nat.add_comm 1]
    rfl

/-- Interpreters were taken out of the queue, together with their permits. -/
def unqueued (p : Pool) (out kept : List Interpreter) : Pool :=
  { p with
    idle := kept
    available := lowered p.available out.length
    permits := p.permits - out.length }

theorem run_discardAll_unqueued {out kept : List Interpreter} (htotal : out.length ≤ p.total)
    (havailable : out.length ≤ p.available) :
    ((p.unqueued out kept).discardAll out).run w
      = (p.relieved out kept, w.endScopes (out.map (·.state))) := by
  rw [run_discardAll (p := p.unqueued out kept) out htotal, foldl_remove, unqueued,
    lowered_of_le havailable]
  rfl

/-- In an open pool, creations are planned as far as there are slots. -/
theorem plan?_open (hopen : p.closed = false) (purpose : Purpose) :
    p.plan? purpose = if p.total < p.config.maxSize then some (p.planning purpose 1) else none := by
  rw [plan?, hopen, if_neg Bool.false_ne_true, reserve?]
  split <;> rfl

/-- **Filling up** plans as many replacements as asked for, or as there are slots. -/
theorem refill_eq (n : Nat) : ∀ {p : Pool}, p.closed = false →
    refill n p = p.planning .replacement (min n (p.config.maxSize - p.total)) := by
  induction n with
  | zero => exact fun _ => by rw [refill, Nat.zero_min, planning_zero]
  | succ n ih =>
    intro p hopen
    rw [refill, plan?_open hopen]
    by_cases hlt : p.total < p.config.maxSize
    · have hmin : 1 + min n (p.config.maxSize - (p.total + 1))
          = min (n + 1) (p.config.maxSize - p.total) := by omega
      rw [if_pos hlt, ← hmin, ← planning_planning]
      exact ih (p := p.planning .replacement 1) hopen
    · have hmin : min (n + 1) (p.config.maxSize - p.total) = 0 := by omega
      rw [if_neg hlt, hmin, planning_zero]

/-! ## Sweeps

After the loop the pool is described once more as a record in which a few fields have changed, and
the books are used to see that no gauge runs below zero on the way. -/

theorem length_overdue (p : Pool) (now : Nat) :
    (p.overdue now).length = min p.permits (p.idle.countP (isStale p.config now)) := by
  rw [overdue, List.length_take, List.countP_eq_length_filter]

namespace Balanced

theorem drained_eq_false (h : Balanced born p 0 0 []) (hopen : p.closed = false) :
    p.drained = false :=
  Bool.eq_false_iff.2 fun hd => absurd (hopen.symm.trans (h.drained hd).1) Bool.false_ne_true

/-- In an open pool there are as many idle interpreters as there are permits, free or granted. -/
theorem permits_eq (h : Balanced born p 0 0 []) (hopen : p.closed = false) :
    p.permits + p.granted.length = p.idle.length := h.permits (h.drained_eq_false hopen)

theorem nodup_idle (h : Balanced born p 0 0 []) : (p.idle.map (·.id)).Nodup :=
  h.numbers.nodup.of_append_right.of_append_left.of_append_left

/-- What a sweep evicts and what it leaves make up the queue. -/
theorem split_idle (h : Balanced born p 0 0 []) (now : Nat) :
    splitStale (isStale p.config now) p.permits p.idle = (p.overdue now, p.spared now) := by
  obtain ⟨hperm, -⟩ := splitStale_cut (isStale p.config now) p.permits p.idle
  have hkept := splitStale_sublist (isStale p.config now) p.permits p.idle
  have hfst : (splitStale (isStale p.config now) p.permits p.idle).1 = p.overdue now :=
    splitStale_fst _ _ _
  rw [hfst] at hperm
  exact Prod.ext hfst (eq_filter_of_cut h.nodup_idle hperm hkept)

theorem perm_overdue (h : Balanced born p 0 0 []) (now : Nat) :
    (p.overdue now ++ p.spared now).Perm p.idle := by
  have hcut := (splitStale_cut (isStale p.config now) p.permits p.idle).1
  rwa [h.split_idle now] at hcut

/-- **What a sweep does.** -/
theorem run_sweep (h : Balanced born p 0 0 []) (hopen : p.closed = false)
    (hsize : p.config.minSize ≤ p.config.maxSize) (now : Nat) (w : World) :
    (p.sweep now).run w
      = (((p.overdue now).length,
          ((p.relieved (p.overdue now) (p.spared now)).noteEvicted (p.overdue now).length).planning
            .replacement (p.config.minSize - (p.total - (p.overdue now).length))),
        w.endScopes ((p.overdue now).map (·.state))) := by
  have hdrained : p.drained = false := h.drained_eq_false hopen
  have hsplit := h.split_idle now
  have hlen := (h.perm_overdue now).length_eq
  rw [List.length_append] at hlen
  have htotal := h.total
  have havailable := h.available
  have hbounded := h.bounded
  have hout : (p.overdue now).length ≤ p.total := by omega
  have havailable' : (p.overdue now).length ≤ p.available := by omega
  have hdiscard : (((p.noteEvicted (p.overdue now).length).unqueued (p.overdue now)
      (p.spared now)).discardAll (p.overdue now)).run w = _ :=
    run_discardAll_unqueued hout havailable'
  have hrefill := refill_eq (p.config.minSize - (p.total - (p.overdue now).length))
    (p := (p.noteEvicted (p.overdue now).length).relieved (p.overdue now) (p.spared now)) hopen
  have hroom : min (p.config.minSize - (p.total - (p.overdue now).length))
      (p.config.maxSize - (p.total - (p.overdue now).length))
      = p.config.minSize - (p.total - (p.overdue now).length) := by omega
  have hfree : (if p.drained then 0 else p.permits) = p.permits := by
    rw [hdrained, if_neg Bool.false_ne_true]
  rw [Pool.sweep, hfree, hsplit]
  show StateT.run (do
    let q ← ((p.noteEvicted (p.overdue now).length).unqueued (p.overdue now)
      (p.spared now)).discardAll (p.overdue now)
    pure ((p.overdue now).length, Pool.refill (q.config.minSize - q.total) q)) w = _
  rw [StateT.run_bind, hdiscard]
  refine Prod.ext (Prod.ext rfl (hrefill.trans ?_)) rfl
  exact congrArg _ hroom

end Balanced

/-- **A sweep of an open pool**, at any moment of a run.  It destroys the first stale interpreters
in the queue, as many as there are stale ones or free permits, whichever is less, and counts them;
the others stay in their order, and there are enough of them for all permits that were granted.
Then replacements are planned for what is missing to the minimal size.  Nothing else about the pool
changes, and in the world just the scopes of the destroyed interpreters end. -/
theorem sweep_of_run {config : PoolConfig} {opened : List Interpreter} {ms : List Move}
    (h : Run config opened ms p) (hopen : p.closed = false) (now : Nat) (w : World) :
    let out := p.overdue now
    let missing := p.config.minSize - (p.total - out.length)
    (p.sweep now).run w
        = ((out.length, ((p.relieved out (p.spared now)).noteEvicted out.length).planning
            .replacement missing), w.endScopes (out.map (·.state)))
      ∧ out.length = min p.permits (p.idle.countP (isStale p.config now))
      ∧ (out ++ p.spared now).Perm p.idle
      ∧ p.granted.length ≤ (p.spared now).length := by
  have hb := h.balanced
  have hperm := hb.perm_overdue now
  have hpermits := hb.permits_eq hopen
  have hlen := hperm.length_eq
  have hout := p.length_overdue now
  rw [List.length_append] at hlen
  exact ⟨hb.run_sweep hopen h.minSize_le_maxSize now w, hout, hperm, by omega⟩

/-- A configuration for two interpreters, no more and no less. -/
def twins : PoolConfig := { minSize := 2, maxSize := 2 }

/-- Both interpreters were on loan and have come back, long ago; the permit of one of them is
granted to a request that has waited for it.  So only one of the two stale interpreters is evicted,
the first one, and a replacement is planned. -/
theorem sweep_of_run_promised : ∃ ms p, Run twins [secondMade, firstMade] ms p ∧ p.closed = false
    ∧ p.idle.map (·.id) = [1, 2] ∧ p.idle.countP (isStale p.config (10 ^ 18)) = 2 ∧ p.permits = 1
    ∧ (p.overdue (10 ^ 18)).map (·.id) = [1] ∧ (p.spared (10 ^ 18)).map (·.id) = [2]
    ∧ ∀ w, ((p.sweep (10 ^ 18)).run w).1.1 = 1
      ∧ ((p.sweep (10 ^ 18)).run w).1.2.idle = p.spared (10 ^ 18)
      ∧ ((p.sweep (10 ^ 18)).run w).1.2.planned = [.replacement]
      ∧ p.granted.length ≤ (p.spared (10 ^ 18)).length := by
  have hfirst : Opening twins [firstMade] _ :=
    @Opening.more twins [] _ _ _ firstMade 0 default _ (.empty rfl) Nat.zero_lt_two rfl rfl rfl
  have hsecond : Opening twins [secondMade, firstMade] _ :=
    @Opening.more twins _ _ _ _ secondMade 0 default _ hfirst Nat.one_lt_two rfl rfl rfl
  have h₀ : Run twins [secondMade, firstMade] [] _ := .start ⟨hsecond, Nat.le_refl _⟩
  have h₁ := h₀.step (m := .request 7 0) ⟨List.not_mem_nil, default, _, rfl⟩
  have h₂ := h₁.step (m := .request 8 0) ⟨List.not_mem_nil, default, _, rfl⟩
  have h₃ := h₂.step (m := .request 9 0) ⟨List.not_mem_nil, default, _, rfl⟩
  have h₄ := h₃.step (m := .giveBack 1 0) ⟨List.mem_cons_self, default, _, rfl⟩
  have h₅ := h₄.step (m := .giveBack 2 0) ⟨List.mem_cons_self, default, _, rfl⟩
  -- what is known of this pool, so that it need not be unfolded any more
  obtain ⟨ms, p, h, hopen, hids, hstale, hfree, hout, hkept, hplanned, hmissing⟩ :
      ∃ ms p, Run twins [secondMade, firstMade] ms p ∧ p.closed = false
        ∧ p.idle.map (·.id) = [1, 2] ∧ p.idle.countP (isStale p.config (10 ^ 18)) = 2
        ∧ p.permits = 1 ∧ (p.overdue (10 ^ 18)).map (·.id) = [1]
        ∧ (p.spared (10 ^ 18)).map (·.id) = [2] ∧ p.planned = []
        ∧ p.config.minSize - (p.total - 1) = 1 :=
    ⟨_, _, h₅, rfl, rfl, by decide +kernel, rfl, rfl, rfl, rfl, rfl⟩
  have hone : (p.overdue (10 ^ 18)).length = 1 := by
    rw [← List.length_map (·.id), hout, List.length_singleton]
  refine ⟨ms, p, h, hopen, hids, hstale, hfree, hout, hkept, fun w => ?_⟩
  obtain ⟨hrun, -, -, hgranted⟩ := sweep_of_run h hopen (10 ^ 18) w
  rw [hone, hmissing] at hrun
  rw [hrun]
  refine ⟨rfl, rfl, ?_, hgranted⟩
  show p.planned ++ [.replacement] = [.replacement]
  rw [hplanned, List.nil_append]

end Pool
end ScriptPool
