import ScriptPool.Proofs.Pool.Clean
import ScriptPool.Proofs.Pool.Waiting

/-!
# The minimal size

A pool is opened with its minimal number of interpreters.  Shrinking stops at that number, a sweep
fills up to it, and what is discarded on its return is replaced.  All of them go by `total`, in
which what is in the making counts like what is there.  So an idle interpreter may be evicted
because another one is on its way, and if that one comes to nothing afterwards, there is one too
few.  Nobody notices before the next sweep.

This file shows that there is no other way for an open pool to fall below its minimal size, as long
as no idle interpreter is marked as running a script; one that is would be discarded instead of
being lent, and it would not be replaced.

## What is here

* `minSize_le_shrink` and `Step.minSize_le_of_sweep` — shrinking does not go below the minimal size,
  and after a sweep an open pool has it, however few interpreters there were before.
* `Step.total_lt_minSize_iff` — where a pool has its minimal size, **a move takes it below exactly
  if it frees the slot of a creation while there is none to spare**.
* `minSize_of_run` — and so this is what has happened, since the last sweep, to a pool that is below
  it.
-/

set_option autoImplicit false

namespace ScriptPool
namespace Pool

open Transition

variable {config : PoolConfig} {opened born : List Interpreter} {ms : List Move} {p q : Pool}
  {m : Move}

/-! ## Serving requests -/

/-- The slot of an idle interpreter becomes free in checking it out only if it is marked as running
a script. -/
theorem total_checkOut_of_resting (h : ∀ i ∈ p.idle, i.executing = false) :
    Ensures p.checkOut fun r => r.2.total = p.total := by
  rw [checkOut]
  split
  · exact ensures_pure rfl
  · rename_i i q hq
    rw [h i (receives_takeIdle? hq).1, if_neg Bool.false_ne_true]
    exact ensures_pure (total_takeIdle? hq)

theorem total_checkOutAny_of_resting (n : Nat) :
    ∀ p : Pool, (∀ i ∈ p.idle, i.executing = false) →
      Ensures (checkOutAny n p) fun r => r.2.total = p.total := by
  induction n with
  | zero => exact fun p _ => ensures_pure rfl
  | succ n ih =>
    intro p h
    rw [checkOutAny]
    split
    · exact ensures_pure rfl
    · rename_i q hq
      obtain ⟨k, -, rfl⟩ := takePermit?_eq_some hq
      have h' : ∀ i ∈ ({ p with permits := k } : Pool).idle, i.executing = false := h
      refine ((receives_checkOut _).and (total_checkOut_of_resting h')).bind fun r hr => ?_
      obtain ⟨⟨hrec, -⟩, htotal⟩ := hr
      rcases r with ⟨_ | i, r⟩
      · exact (ih r fun i hi => h' i (hrec.idle_of_nil hi)).mono fun s hs => hs.trans htotal
      · exact ensures_pure htotal

theorem total_le_serve (h : ∀ i ∈ p.idle, i.executing = false) (key now : Nat)
    (waitedBefore : Bool) :
    Ensures (p.serve key now waitedBefore) fun r => p.total ≤ r.2.total := by
  rw [serve]
  split
  · exact ensures_pure (Nat.le_refl _)
  · refine (total_checkOutAny_of_resting p.permits p h).bind fun r hr => ?_
    have hle : p.total ≤ r.2.total := Nat.le_of_eq hr.symm
    rcases r with ⟨_ | i, r⟩
    · dsimp only
      cases hres : r.reserve? with
      | some q =>
        rw [(reserve?_eq_some hres).2]
        exact ensures_pure (Nat.le_succ_of_le hle)
      | none => cases waitedBefore <;> exact ensures_pure hle
    · exact ensures_pure hle

theorem total_le_resume (h : ∀ i ∈ p.idle, i.executing = false) (key now : Nat) :
    Ensures (p.resume key now) fun r => p.total ≤ r.2.total := by
  let p' := { p with granted := p.granted.erase key }
  have h' : ∀ i ∈ p'.idle, i.executing = false := h
  rw [resume]
  refine ((receives_checkOut p').and (total_checkOut_of_resting h')).bind fun r hr => ?_
  obtain ⟨⟨hrec, -⟩, htotal⟩ := hr
  have hle : p.total ≤ r.2.total := Nat.le_of_eq htotal.symm
  rcases r with ⟨_ | i, r⟩
  · have hrest : ∀ i ∈ r.idle, i.executing = false := fun i hi => h' i (hrec.idle_of_nil hi)
    exact (total_le_serve hrest key now true).mono fun s hs => Nat.le_trans hle hs
  · exact ensures_pure hle

/-! ## Changing the size -/

/-- **Shrinking does not go below the minimal size.** -/
theorem minSize_le_shrink (n : Nat) : ∀ p : Pool, p.config.minSize ≤ p.total →
    Ensures (p.shrink n) fun r => p.config.minSize ≤ r.2.total := by
  induction n with
  | zero => exact fun p h => ensures_pure h
  | succ n ih =>
    intro p h
    rw [shrink]
    split
    · exact ensures_pure h
    · rename_i hmore
      split
      · exact ensures_pure h
      · rename_i q hq
        obtain ⟨k, -, rfl⟩ := takePermit?_eq_some hq
        split
        · exact ensures_pure h
        · refine ((keeps_discard _ _).and (total_discard _ _)).bind fun r hr => ?_
          obtain ⟨hkeeps, htotal⟩ := hr
          have hconfig : r.config = p.config := hkeeps.config
          have hr : r.config.minSize ≤ r.total := by
            rw [htotal, hconfig]
            show p.config.minSize ≤ lowered p.total 1
            rw [lowered_of_le (by omega)]
            omega
          exact (ih r hr).bind fun s hs => ensures_pure (hconfig ▸ hs)

/-- An open pool is filled up as far as it was to be, or until it is full. -/
theorem le_total_refill (n : Nat) : ∀ p : Pool, p.closed = false →
    min (p.total + n) p.config.maxSize ≤ (refill n p).total := by
  induction n with
  | zero => exact fun p _ => Nat.min_le_left _ _
  | succ n ih =>
    intro p hopen
    rw [refill, plan?, hopen, if_neg Bool.false_ne_true]
    cases hr : p.reserve? with
    | none => exact Nat.le_trans (Nat.min_le_right _ _) (reserve?_eq_none hr)
    | some q =>
      obtain ⟨-, rfl⟩ := reserve?_eq_some hr
      refine Nat.le_trans (Nat.le_of_eq ?_) (ih _ hopen)
      show min (p.total + (n + 1)) p.config.maxSize = min (p.total + 1 + n) p.config.maxSize
      rw [Nat.add_assoc, Nat.add_comm 1 n]

/-- Sweeping fills an open pool up to its minimal size. -/
theorem minSize_le_sweep (hopen : p.closed = false) (hle : p.config.minSize ≤ p.config.maxSize)
    (now : Nat) : Ensures (p.sweep now) fun r => p.config.minSize ≤ r.2.total := by
  refine (keeps_discardAll _ _).bind fun q hq => ensures_pure ?_
  have hconfig : q.config = p.config := hq.config
  have hfill := le_total_refill (q.config.minSize - q.total) q (hq.closed.trans hopen)
  show p.config.minSize ≤ (refill (q.config.minSize - q.total) q).total
  rw [hconfig] at hfill ⊢
  omega

/-! ## Moves

The operations are gone through for what they do to `total`.  All of them stop at the minimal size,
or put back what they take; only a creation that comes to nothing does neither. -/

/-- An open pool keeps its minimal size, unless a creation comes to nothing. -/
theorem Move.minSize_le (h : Balanced born p 0 0 []) (ha : m.Allowed p) (hopen : p.closed = false)
    (hrest : ∀ i ∈ p.idle, i.executing = false) (hp : p.config.minSize ≤ p.total)
    (hm : ¬ m.FreesSlot p) : Ensures (m.apply p) fun q => p.config.minSize ≤ q.total := by
  by_cases he : m.IsEntry
  · cases m with
    | request key now =>
      have hserve : Ensures (p.request key now) fun r => p.total ≤ r.2.total := by
        refine (total_le_serve ?_ key now false).mono fun r hr => hr
        exact hrest
      exact hserve.snd.mono fun q hq => Nat.le_trans hp hq
    | resume key now =>
      exact (total_le_resume hrest key now).snd.mono fun q hq => Nat.le_trans hp hq
    | close => exact ensures_pure hp
    | _ => exact he.elim
  · by_cases hv : m.Evicts
    · cases m with
      | shrink count => exact (minSize_le_shrink count p hp).snd
      | sweep now => exact (minSize_le_sweep hopen (Nat.le_trans hp h.bounded) now).snd
      | _ => exact hv.elim
    · exact (Move.total_le_of_not_evicts h ha hopen he hv hm).mono fun q hq => Nat.le_trans hp hq

/-- **Where an open pool has its minimal size, a move takes it below exactly if it frees the slot of
a creation while there is none to spare.** -/
theorem Step.total_lt_minSize_iff (h : Balanced born p 0 0 []) (s : Step p m q)
    (hopen : p.closed = false) (hrest : ∀ i ∈ p.idle, i.executing = false)
    (hp : p.config.minSize ≤ p.total) :
    q.total < q.config.minSize ↔ m.FreesSlot p ∧ p.total = p.config.minSize := by
  obtain ⟨ha, w, w', hrun⟩ := s
  rw [(Move.config p m).of_run hrun]
  by_cases hm : m.FreesSlot p
  · have hone := ((hm.frees h ha).of_run hrun).1
    refine ⟨fun hlt => ⟨hm, ?_⟩, fun heq => ?_⟩ <;> omega
  · have hle := (Move.minSize_le h ha hopen hrest hp hm).of_run hrun
    exact ⟨fun hlt => absurd hle (Nat.not_le.2 hlt), fun heq => absurd heq.1 hm⟩

/-- **A sweep brings an open pool to its minimal size**, however few interpreters there were before.
-/
theorem Step.minSize_le_of_sweep {now : Nat} (s : Step p (.sweep now) q) (hopen : p.closed = false)
    (hle : p.config.minSize ≤ p.config.maxSize) : q.config.minSize ≤ q.total := by
  obtain ⟨-, w, w', hrun⟩ := s
  have hsweep : Ensures (Move.apply p (.sweep now)) fun q => p.config.minSize ≤ q.total :=
    (minSize_le_sweep hopen hle now).snd
  rw [(Move.config p _).of_run hrun]
  exact hsweep.of_run hrun

/-! ## Runs

Between being short and the next sweep anything may happen, so what is found is a moment in the
past: there was a move at which the pool fell short, and no sweep since. -/

/-- In a run in which borrowers do not break down, no idle interpreter is marked as running a
script. -/
theorem Run.resting (h : Run config opened ms p) (hready : ∀ i ∈ madeIn opened ms, i.Ready)
    (hdealt : Dealt ms) : ∀ i ∈ p.idle, i.executing = false := by
  obtain ⟨start, log, ho, hpath⟩ := h.exists_path
  exact fun i hi => (hpath.orderly ho hready hdealt).resting i (List.mem_append_left _ hi)

theorem Run.minSize_le_maxSize (h : Run config opened ms p) :
    p.config.minSize ≤ p.config.maxSize := by
  induction h with
  | start h => exact Nat.le_trans h.2 h.1.balanced.bounded
  | @step ms p q m _ s ih =>
    obtain ⟨-, w, w', hrun⟩ := s
    rw [(Move.config p m).of_run hrun]
    exact ih

/-- An open pool is below its minimal size only after a creation came to nothing while there was
none to spare, and only until the next sweep. -/
theorem Run.exists_frees (h : Run config opened ms p) :
    (∀ i ∈ madeIn opened ms, i.Ready) → Dealt ms → p.closed = false →
      p.total < p.config.minSize → ∃ later m before q, ms = later ++ m :: before
        ∧ Run config opened before q ∧ m.FreesSlot q ∧ q.total = q.config.minSize
        ∧ ∀ now, .sweep now ∉ later := by
  induction h with
  | start h => exact fun _ _ _ hlt => absurd h.2 (Nat.not_le.2 hlt)
  | @step ms p q m hrun s ih =>
    intro hready hdealt hopen hlt
    have hopenp := s.open hopen
    have hready' := fun i hi => hready i (mem_madeIn_cons hi)
    by_cases hp : p.config.minSize ≤ p.total
    · have hrest := hrun.resting hready' hdealt.tail
      obtain ⟨hm, heq⟩ := (s.total_lt_minSize_iff hrun.balanced hopenp hrest hp).1 hlt
      exact ⟨[], m, ms, p, rfl, hrun, hm, heq, fun now hn => absurd hn List.not_mem_nil⟩
    · obtain ⟨later, m', before, r, rfl, hr, hm, heq, hsweep⟩ :=
        ih hready' hdealt.tail hopenp (Nat.not_le.1 hp)
      refine ⟨m :: later, m', before, r, rfl, hr, hm, heq, fun now hn => ?_⟩
      -- it was below before the last move as well, and a sweep would have filled it up
      rcases List.mem_cons.1 hn with rfl | hn
      · exact Nat.not_le.2 hlt (s.minSize_le_of_sweep hopenp hrun.minSize_le_maxSize)
      · exact hsweep now hn

/-- **When a pool is below its minimal size.**  Take an open pool at any moment of a run in which
interpreters are ready when they are made and borrowers do not break down.  If it has its minimal
size, the next move takes it below exactly if it frees the slot of a creation while there is none to
spare.  After a sweep it has its minimal size in any case.  So if it is below, then since the last
sweep a creation has come to nothing while there was none to spare. -/
theorem minSize_of_run (h : Run config opened ms p) (hready : ∀ i ∈ madeIn opened ms, i.Ready)
    (hdealt : Dealt ms) (hopen : p.closed = false) :
    (p.config.minSize ≤ p.total → ∀ m q, Step p m q →
      (q.total < q.config.minSize ↔ m.FreesSlot p ∧ p.total = p.config.minSize))
    ∧ (∀ now q, Step p (.sweep now) q → q.config.minSize ≤ q.total)
    ∧ (p.total < p.config.minSize → ∃ later m before q, ms = later ++ m :: before
      ∧ Run config opened before q ∧ m.FreesSlot q ∧ q.total = q.config.minSize
      ∧ ∀ now, .sweep now ∉ later) := by
  refine ⟨fun hp m q s => ?_, fun now q s => ?_, h.exists_frees hready hdealt hopen⟩
  · exact s.total_lt_minSize_iff h.balanced hopen (h.resting hready hdealt) hp
  · exact s.minSize_le_of_sweep hopen h.minSize_le_maxSize

/-- A configuration for one interpreter or two. -/
def pair : PoolConfig := { minSize := 1, maxSize := 2 }

/-- The interpreter that is made next. -/
def secondMade : Interpreter := { id := 2, state := 1, baseline := default, lastUsed := 0 }

/-- The only interpreter is on loan, and another request has one made for it.  The first one comes
back and is evicted, as there is another on its way.  Then the request is given up.  Nothing has
failed, and nothing goes on any more; but the pool is empty. -/
theorem minSize_of_run_abandoned : ∃ ms p, Run pair [firstMade] ms p ∧ p.closed = false
    ∧ p.idle = [] ∧ p.loans = [] ∧ p.planned = [] ∧ p.creations = [] ∧ p.keys = []
    ∧ p.counters.creationFailures = 0 ∧ p.total = 0 ∧ p.config.minSize = 1
    ∧ ∃ later m before q, ms = later ++ m :: before ∧ Run pair [firstMade] before q
      ∧ m.FreesSlot q ∧ q.total = q.config.minSize ∧ ∀ now, .sweep now ∉ later := by
  have hopening : Opening pair [firstMade] _ :=
    @Opening.more pair [] _ _ _ firstMade 0 default _ (.empty rfl) Nat.zero_lt_one rfl rfl rfl
  have h₀ : Run pair [firstMade] [] _ := .start ⟨hopening, Nat.le_refl _⟩
  have h₁ := h₀.step (m := .request 7 0) ⟨List.not_mem_nil, default, _, rfl⟩
  have h₂ := h₁.step (m := .request 8 0) ⟨List.not_mem_nil, default, _, rfl⟩
  have h₃ := h₂.step (m := .giveBack 1 0) ⟨List.mem_cons_self, default, _, rfl⟩
  have h₄ := h₃.step (m := .sweep (10 ^ 18)) ⟨trivial, default, _, rfl⟩
  have h₅ := h₄.step (m := .giveUp 8) ⟨List.mem_cons_self, default, _, rfl⟩
  have h₆ := h₅.step (m := .endCreation 2 (.ok secondMade))
    ⟨⟨⟨_, List.mem_cons_self, rfl, rfl⟩, fun i hi => by cases hi; rfl⟩, default, _, rfl⟩
  have h₇ := h₆.step (m := .collect { id := 2, purpose := none, outcome := some (.ok secondMade) }
    (.ok secondMade) 0) ⟨⟨List.mem_cons_self, rfl⟩, default, _, rfl⟩
  have hmin := minSize_of_run h₇
    (fun i hi => by rcases hi with _ | ⟨_, _ | ⟨_, ⟨⟩⟩⟩ <;> exact ⟨rfl, rfl, rfl⟩)
    (fun id use hm => by simp at hm) rfl
  exact ⟨_, _, h₇, rfl, rfl, rfl, rfl, rfl, rfl, rfl, rfl, rfl, hmin.2.2 Nat.zero_lt_one⟩

end Pool
end ScriptPool
