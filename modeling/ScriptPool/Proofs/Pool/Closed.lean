import ScriptPool.Proofs.Pool.Clean
import ScriptPool.Proofs.Pool.Population
import ScriptPool.Proofs.Pool.Waiting

/-!
# Pools that were closed

A pool that is closed turns requests away, and once it has been drained there is nothing in the
queue to be lent out and no permit to take it with.  What is left of it comes to its end by itself:
loans, which end when their borrowers hand the interpreters back, and creations that had a slot when
the pool was closed.  All of this is discarded as it comes in, with one exception.  A request that
has an interpreter made for it does not look again whether the pool is still open, so it is lent
that interpreter when it is ready.

## What is here

* `Emptied` — what a drained pool is like: only loans and reservations occupy slots.
* `Move.Returns` — the moves by which an interpreter comes in.  `Step.dwindles` says what a move of
  a drained pool does: nothing is planned, whatever comes in is discarded, and a slot becomes free
  exactly by that or where a creation comes to nothing.
* `drained_of_run` — **a drained pool stays drained**, however the run goes on, and its slots become
  free one by one.
* `Pending` — an interpreter in the making for a request.  These are the interpreters that can still
  be handed out once the pool was drained, and no others are (`exists_path_handedOut`).
-/

set_option autoImplicit false

namespace ScriptPool
namespace Pool

open Transition

variable {config : PoolConfig} {opened born : List Interpreter} {ms later : List Move}
  {log : List Nat} {start p q : Pool} {m : Move} {i : Interpreter} {id : Nat}

/-! ## Closed pools -/

/-- A closed pool serves nobody. -/
theorem serve_closed (hc : p.closed = true) (key now : Nat) (waitedBefore : Bool) :
    p.serve key now waitedBefore = pure (.failed .closed, p) := by
  rw [serve]
  rw [hc, if_pos rfl]

/-- A request that begins after the pool was closed is turned away; only the statistics know of it.
-/
theorem request_closed (hc : p.closed = true) (key now : Nat) :
    p.request key now = pure (.failed .closed, { p with
      counters := { p.counters with requests := p.counters.requests + 1 }
      recent := p.recent.record now }) :=
  serve_closed (p := { p with
    counters := { p.counters with requests := p.counters.requests + 1 }
    recent := p.recent.record now }) hc key now false

theorem plan?_closed (hc : p.closed = true) (purpose : Purpose) : p.plan? purpose = none := by
  rw [plan?, if_pos hc]

theorem grow_closed (hc : p.closed = true) (n : Nat) : p.grow n = (0, p) := by
  cases n with
  | zero => rfl
  | succ n => rw [grow, plan?_closed hc]

theorem refill_closed (hc : p.closed = true) (n : Nat) : refill n p = p := by
  cases n with
  | zero => rfl
  | succ n => rw [refill, plan?_closed hc]

/-- What comes back to a closed pool is discarded. -/
theorem giveBack_closed (hc : p.closed = true) (hl : p.loan? id = some i) (now : Nat) :
    p.giveBack id now = (p.endLoan i.id now).discard i := by
  rw [giveBack, hl]
  show p.takeBack i now = _
  rw [takeBack]
  exact if_pos hc

/-- What was made in the background for a closed pool is discarded. -/
theorem collect_closed (hc : p.closed = true) {c : Creation} (hw : c.purpose.isSome = true)
    (hk : Creation.key? c = none) (i : Interpreter) (now : Nat) :
    ∃ counters, counters.destroyed = p.counters.destroyed ∧ p.collect c (.ok i) now
      = (do return (none, ← { p.dropCreation c.id with counters }.discard i)) := by
  have hidle : ∀ counters : PoolCounters,
      { p.dropCreation c.id with counters }.addIdle i
        = { p.dropCreation c.id with counters }.discard i := fun counters => by
    rw [addIdle]
    exact if_pos hc
  unfold collect
  rw [Creation.key?] at hk
  cases hp : c.purpose with
  | none =>
    rw [hp] at hw
    cases hw
  | some purpose =>
    cases purpose with
    | request key =>
      rw [hp] at hk
      cases hk
    | replacement =>
      refine ⟨(p.dropCreation c.id).noteCreated.counters, rfl, ?_⟩
      dsimp only [noteCreated]
      rw [hidle]
    | growth =>
      refine ⟨{ (p.dropCreation c.id).noteCreated.counters with
        scaleUps := p.counters.scaleUps + 1 }, rfl, ?_⟩
      dsimp only [noteCreated]
      rw [← hidle]
      rfl

/-! ## Drained pools

In a drained pool nothing is idle and no permit is free, and nothing that goes on by itself adds to
either.  So the operations on the queue come to nothing, one after the other. -/

theorem checkOut_nil (hi : p.idle = []) : p.checkOut = pure (none, p) := by
  have hnone : p.idle[p.nextPlace]? = none := by
    rw [List.getElem?_eq_none_iff]
    rw [hi]
    exact Nat.zero_le _
  rw [checkOut, takeIdle?, hnone]

/-- A request with a permit finds nothing in the queue of a drained pool. -/
theorem resume_drained (hc : p.closed = true) (hi : p.idle = []) (key now : Nat) :
    p.resume key now = pure (.failed .closed, { p with granted := p.granted.erase key }) := by
  rw [resume, checkOut_nil (p := { p with granted := p.granted.erase key }) hi, pure_bind]
  exact serve_closed (p := { p with granted := p.granted.erase key }) hc key now true

theorem shrink_drained (hd : p.drained = true) (n : Nat) : p.shrink n = pure (0, p) := by
  have htake : p.takePermit? = none := by
    rw [takePermit?, if_pos hd]
  cases n with
  | zero => rfl
  | succ n =>
    rw [shrink]
    rw [htake]
    split <;> rfl

/-- A sweep evicts nothing and plans nothing. -/
theorem sweep_drained (hc : p.closed = true) (hd : p.drained = true) (hi : p.idle = [])
    (now : Nat) : Ensures (p.sweep now) fun r => ∃ permits available counters,
      r.2 = { p with idle := [], permits, available, counters } := by
  rw [sweep]
  dsimp only
  rw [hd, if_pos rfl, hi]
  refine ensures_pure ⟨_, _, _, refill_closed ?_ _⟩
  exact hc

/-- The queue is empty for good: slots are occupied by interpreters on loan and by reservations. -/
structure Emptied (p : Pool) : Prop where
  closed : p.closed = true
  idle : p.idle = []
  available : p.available = 0
  inUse : p.inUse = p.loans.length
  total : p.total = p.loans.length + p.reserved

theorem Balanced.emptied (h : Balanced born p 0 0 []) (hd : p.drained = true) : Emptied p := by
  obtain ⟨hclosed, hidle⟩ := h.drained hd
  have havailable := h.available
  have htotal := h.total
  rw [hidle, List.length_nil] at havailable htotal
  exact ⟨hclosed, hidle, havailable, h.inUse, by omega⟩

/-- All slots are free when the last loan and the last creation that somebody waits for, or that was
planned, have come to their end. -/
theorem Emptied.total_eq_zero_iff (h : Emptied p) :
    p.total = 0 ↔ p.loans = [] ∧ p.planned = [] ∧ ∀ c ∈ p.creations, c.purpose = none := by
  rw [h.total, reserved, Nat.add_eq_zero_iff, Nat.add_eq_zero_iff, List.length_eq_zero_iff,
    List.length_eq_zero_iff, List.countP_eq_zero]
  simp only [Option.isSome_iff_ne_none, ne_eq, not_not]

/-! ## What comes to its end

What still occupies a slot is counted, and no move of a drained pool adds to the count.  A return
takes something away, and so does a creation that comes to nothing. -/

/-- An interpreter comes back from a loan, or from a creation in the background. -/
inductive Move.Returns : Move → Nat → Prop where
  | loan {id now : Nat} : Returns (.giveBack id now) id
  | made {c : Creation} {i : Interpreter} {now : Nat} (wanted : c.purpose.isSome = true)
      (background : Creation.key? c = none) : Returns (.collect c (.ok i) now) c.id

/-- The interpreter of this number is in the making for a request, or is ready for it. -/
def Pending (p : Pool) (id : Nat) : Prop :=
  ∃ c ∈ p.creations, c.id = id ∧ (Creation.key? c).isSome = true ∧ c.isAlive = true

theorem Creation.key?_eq_some {c : Creation} {key : Nat} (h : Creation.key? c = some key) :
    c.purpose = some (.request key) := by
  rw [key?] at h
  split at h
  · rename_i hp
    rw [hp, Option.some.inj h]
  · cases h

/-- What a move of a drained pool does. -/
structure Dwindles (m : Move) (p q : Pool) : Prop where
  drained : q.drained = true
  /-- Nothing is planned, and no slot is reserved any more. -/
  planned : q.planned.Sublist p.planned
  reserved : q.reserved ≤ p.reserved
  /-- Whatever returns is discarded, and its slot becomes free. -/
  returns : ∀ id, m.Returns id → q.total + 1 = p.total
    ∧ q.counters.destroyed = p.counters.destroyed + 1 ∧ id ∉ q.numbers
  /-- A creation that comes to nothing frees its slot. -/
  frees : m.FreesSlot p → q.total + 1 = p.total
  /-- Nothing else affects the slots. -/
  stays : (∀ id, ¬ m.Returns id) → ¬ m.FreesSlot p → q.total = p.total
  /-- Only what was in the making for a request is lent out, -/
  lends : ∀ i ∈ q.loans, i.id ∈ p.loans.map (·.id) ∨ p.Pending i.id
  /-- and nothing else will be. -/
  pending : ∀ id, q.Pending id → p.Pending id

/-- A move that ends nothing, and leaves loans and creations as they are. -/
theorem Dwindles.of_eq (hd : q.drained = true) (hplanned : q.planned = p.planned)
    (hcreations : q.creations = p.creations) (hloans : q.loans = p.loans)
    (htotal : q.total = p.total) (hreturns : ∀ id, ¬ m.Returns id) (hfrees : ¬ m.FreesSlot p) :
    Dwindles m p q where
  drained := hd
  planned := hplanned ▸ List.Sublist.refl _
  reserved := by
    rw [Pool.reserved, hplanned, hcreations]
    exact Nat.le_refl _
  returns := fun id h => absurd h (hreturns id)
  frees := fun h => absurd h hfrees
  stays := fun _ _ => htotal
  lends := fun _ hi => .inl (List.mem_map_of_mem (hloans ▸ hi))
  pending := fun id h => by rwa [Pending, hcreations] at h

/-- Discarding an interpreter gives its slot up. -/
theorem ensures_discard (p : Pool) (i : Interpreter) : Ensures (p.discard i) fun q => q = { p with
    loads := p.loads.remove i.id
    total := lowered p.total 1
    counters := { p.counters with destroyed := p.counters.destroyed + 1 } } :=
  (ensures_true _).bind fun _ _ => ensures_pure rfl

theorem Pending.of_sublist {id : Nat} (h : q.Pending id)
    (hsub : q.creations.Sublist p.creations) : p.Pending id := by
  obtain ⟨c, hc, hcid⟩ := h
  exact ⟨c, hsub.subset hc, hcid⟩

theorem reserved_le_of_sublist (hplanned : q.planned = p.planned)
    (hsub : q.creations.Sublist p.creations) : q.reserved ≤ p.reserved := by
  rw [reserved, reserved, hplanned]
  exact Nat.add_le_add_left hsub.countP_le _

/-- A loan of a drained pool ends. -/
theorem dwindles_giveBack (h : Balanced born p 0 0 []) (hd : p.drained = true)
    (hl : p.loan? id = some i) (now : Nat) :
    Ensures (p.giveBack id now) fun q => Dwindles (.giveBack id now) p q := by
  have hempty := h.emptied hd
  obtain ⟨hmem, rfl⟩ := loan?_eq_some hl
  have hpos : 1 ≤ p.total := by
    have hlen := List.length_pos_of_mem hmem
    rw [hempty.total]
    omega
  rw [giveBack_closed hempty.closed hl]
  refine (ensures_discard _ i).mono ?_
  rintro q rfl
  have htotal : lowered p.total 1 + 1 = p.total := by
    rw [lowered_of_le hpos]
    omega
  exact {
    drained := hd
    planned := List.Sublist.refl _
    reserved := Nat.le_refl _
    returns := by
      rintro _ ⟨⟩
      refine ⟨htotal, rfl, fun hin => ?_⟩
      simp only [numbers, endLoan, hempty.idle, List.map_nil, List.nil_append, List.mem_append,
        List.mem_map, List.mem_filter, bne_iff_ne] at hin
      rcases hin with ⟨j, ⟨-, hne⟩, hid⟩ | ⟨c, hc, hid⟩
      · exact hne hid
      · exact h.creation_ne_loan hc hmem hid
    frees := fun hf => hf.elim
    stays := fun hno => absurd .loan (hno i.id)
    lends := fun j hj => .inl (List.mem_map_of_mem (List.mem_filter.1 hj).1)
    pending := fun id hp => hp.of_sublist (List.Sublist.refl _) }

section Collecting

variable {c : Creation} {outcome : Except InterpreterError Interpreter} {now : Nat}

/-- A creation that was forgotten is not there any more. -/
theorem not_mem_dropCreation (p : Pool) (id : Nat) :
    id ∉ (p.dropCreation id).creations.map (·.id) := fun hin => by
  obtain ⟨d, hd, hid⟩ := List.mem_map.1 hin
  exact bne_iff_ne.1 (List.mem_filter.1 hd).2 hid

/-- Whatever came of a creation, it is not there any more once that was taken over. -/
theorem Dwindles.of_collect (hd : p.drained = true) (hdrained : q.drained = p.drained)
    (hplanned : q.planned = p.planned) (hcreations : q.creations = (p.dropCreation c.id).creations)
    (hreturns : ∀ id, (Move.collect c outcome now).Returns id → q.total + 1 = p.total
      ∧ q.counters.destroyed = p.counters.destroyed + 1 ∧ id ∉ q.numbers)
    (hfrees : (Move.collect c outcome now).FreesSlot p → q.total + 1 = p.total)
    (hstays : (∀ id, ¬ (Move.collect c outcome now).Returns id) →
      ¬ (Move.collect c outcome now).FreesSlot p → q.total = p.total)
    (hlends : ∀ i ∈ q.loans, i ∈ p.loans ∨ p.Pending i.id) :
    Dwindles (.collect c outcome now) p q where
  drained := hdrained.trans hd
  planned := hplanned ▸ List.Sublist.refl _
  reserved := reserved_le_of_sublist hplanned (hcreations ▸ List.filter_sublist)
  returns := hreturns
  frees := hfrees
  stays := hstays
  lends := fun i hi => (hlends i hi).imp_left List.mem_map_of_mem
  pending := fun _ hp => hp.of_sublist (hcreations ▸ List.filter_sublist)

/-- A creation failed.  Whoever it was for, nothing comes of it. -/
theorem dwindles_collect_error (h : Balanced born p 0 0 []) (hd : p.drained = true)
    (hc : c ∈ p.creations) (e : InterpreterError) (now : Nat) :
    Ensures (p.collect c (.error e) now) fun r => Dwindles (.collect c (.error e) now) p r.2 := by
  have hreturns : ∀ id, ¬ (Move.collect c (.error e) now).Returns id := fun _ hr => by cases hr
  unfold collect
  cases hp : c.purpose with
  | none =>
    have hnot : ¬ (Move.collect c (.error e) now).FreesSlot p := fun hw => by
      have hsome : c.purpose.isSome = true := hw
      rw [hp] at hsome
      cases hsome
    exact ensures_pure (.of_collect hd rfl rfl rfl (fun id hr => absurd hr (hreturns id))
      (fun hw => absurd hw hnot) (fun _ _ => rfl) fun _ hi => .inl hi)
  | some purpose =>
    have hw : c.purpose.isSome = true := by rw [hp]; rfl
    have hfreed : Dwindles (.collect c (.error e) now) p (p.dropCreation c.id).noteFailure :=
      .of_collect hd rfl rfl rfl (fun id hr => absurd hr (hreturns id))
        (fun _ => h.lowered_add_one hc hw) (fun _ hnot => absurd hw hnot) fun _ hi => .inl hi
    cases purpose <;> exact ensures_pure hfreed

/-- An interpreter was made that nobody wants any more.  It is discarded, and has no slot to give
up. -/
theorem dwindles_collect_unwanted (hd : p.drained = true) (hp : c.purpose = none) (i : Interpreter)
    (now : Nat) :
    Ensures (p.collect c (.ok i) now) fun r => Dwindles (.collect c (.ok i) now) p r.2 := by
  have hreturns : ∀ id, ¬ (Move.collect c (.ok i) now).Returns id := by
    rintro _ ⟨⟩
    rename_i hw _
    rw [hp] at hw
    cases hw
  unfold collect
  rw [hp]
  refine (ensures_true _).bind fun _ _ => ensures_pure ?_
  exact .of_collect hd rfl rfl rfl (fun id hr => absurd hr (hreturns id)) (fun hf => hf.elim)
    (fun _ _ => rfl) fun _ hi => .inl hi

/-- An interpreter was made in the background.  It is discarded. -/
theorem dwindles_collect_background (h : Balanced born p 0 0 []) (hd : p.drained = true)
    (hc : c ∈ p.creations) (hw : c.purpose.isSome = true) (hk : Creation.key? c = none)
    (i : Interpreter) (now : Nat) :
    Ensures (p.collect c (.ok i) now) fun r => Dwindles (.collect c (.ok i) now) p r.2 := by
  have hempty := h.emptied hd
  obtain ⟨counters, hcounters, hcollect⟩ := collect_closed hempty.closed hw hk i now
  rw [hcollect]
  refine (ensures_discard _ i).bind ?_
  rintro q rfl
  refine ensures_pure (.of_collect hd rfl rfl rfl ?_ (fun hf => hf.elim)
    (fun hno => absurd (.made hw hk) (hno c.id)) fun _ hi => .inl hi)
  rintro _ ⟨⟩
  refine ⟨h.lowered_add_one hc hw, congrArg (· + 1) hcounters, fun hin => ?_⟩
  rcases List.mem_append.1 hin with hin | hin
  · rcases List.mem_append.1 hin with hin | hin
    · exact absurd (hempty.idle ▸ hin) List.not_mem_nil
    · obtain ⟨j, hj, hid⟩ := List.mem_map.1 hin
      exact h.creation_ne_loan hc hj hid.symm
  · exact not_mem_dropCreation p c.id hin

/-- An interpreter was made for a request.  It is lent out: the request does not look whether the
pool is still open. -/
theorem dwindles_collect_request (h : Balanced born p 0 0 []) (hd : p.drained = true)
    (hc : c ∈ p.creations) (ho : c.outcome = some (.ok i)) {key : Nat}
    (hk : Creation.key? c = some key) (now : Nat) :
    Ensures (p.collect c (.ok i) now) fun r => Dwindles (.collect c (.ok i) now) p r.2 := by
  have hreturns : ∀ id, ¬ (Move.collect c (.ok i) now).Returns id := by
    rintro _ ⟨⟩
    rename_i hbackground
    rw [hk] at hbackground
    cases hbackground
  have hid : i.id = c.id := (h.ended c hc i ho).1
  have hpending : p.Pending i.id := by
    refine ⟨c, hc, hid.symm, by rw [hk]; rfl, ?_⟩
    rw [Creation.isAlive, ho]
  unfold collect
  rw [Creation.key?_eq_some hk]
  refine ensures_pure (.of_collect hd rfl rfl rfl (fun id hr => absurd hr (hreturns id))
    (fun hf => hf.elim) (fun _ _ => rfl) fun j hj => ?_)
  rcases List.mem_append.1 hj with hj | hj
  · exact .inl hj
  · obtain rfl := List.mem_singleton.1 hj
    exact .inr hpending

/-- What came of a creation is taken over by a drained pool. -/
theorem dwindles_collect (h : Balanced born p 0 0 []) (hd : p.drained = true)
    (hc : c ∈ p.creations) (ho : c.outcome = some outcome) (now : Nat) :
    Ensures (p.collect c outcome now) fun r => Dwindles (.collect c outcome now) p r.2 := by
  cases outcome with
  | error e => exact dwindles_collect_error h hd hc e now
  | ok i =>
    cases hk : Creation.key? c with
    | some key => exact dwindles_collect_request h hd hc ho hk now
    | none =>
      by_cases hw : c.purpose.isSome = true
      · exact dwindles_collect_background h hd hc hw hk i now
      · exact dwindles_collect_unwanted hd (Option.not_isSome_iff_eq_none.1 hw) i now

end Collecting

/-- A request is given up. -/
theorem dwindles_giveUp (h : Balanced born p 0 0 []) (hd : p.drained = true) (key : Nat) :
    Dwindles (.giveUp key) p (p.giveUp key) := by
  by_cases hg : key ∈ p.granted
  · have hf : ¬ (Move.giveUp key).FreesSlot p := fun hf => hf.1 hg
    rw [giveUp, if_pos (List.contains_iff_mem.2 hg), addPermit]
    split <;> exact .of_eq hd rfl rfl rfl rfl (fun _ hr => by cases hr) hf
  · rw [giveUp, if_neg fun hk => hg (List.contains_iff_mem.1 hk)]
    split
    · rename_i hany
      obtain ⟨c, hc, hfor⟩ := List.any_eq_true.1 hany
      have hw : c.purpose.isSome = true := by
        rw [(Creation.isFor_iff c key).1 hfor]
        rfl
      exact {
        drained := hd
        planned := List.Sublist.refl _
        reserved := by
          have hcount := countP_without key p.creations
          show p.planned.length
            + ((p.creations.map (Creation.without key)).countP fun c => c.purpose.isSome) ≤ _
          rw [reserved]
          omega
        returns := fun _ hr => by cases hr
        frees := fun _ => h.lowered_add_one hc hw
        stays := fun _ hf => absurd ⟨hg, hany⟩ hf
        lends := fun j hj => .inl (List.mem_map_of_mem hj)
        pending := by
          rintro id ⟨d, hd, hid, hk, halive⟩
          obtain ⟨e, he, rfl⟩ := List.mem_map.1 hd
          split at hk
          · cases hk
          · rename_i hfor
            rw [if_neg hfor] at hid halive
            exact ⟨e, he, hid, hk, halive⟩ }
    · rename_i hany
      exact .of_eq hd rfl rfl rfl rfl (fun _ hr => by cases hr) fun hf => hany hf.2

/-- A creation that was planned begins.  It is not for a request. -/
theorem dwindles_begin (h : Balanced born p 0 0 []) (hd : p.drained = true) {purpose : Purpose}
    (hp : purpose ∈ p.planned) :
    Dwindles (.begin purpose) p ({ p with planned := p.planned.erase purpose }.begin purpose) where
  drained := hd
  planned := List.erase_sublist
  reserved := by
    have hlen := List.length_erase_of_mem hp
    have hpos := List.length_pos_of_mem hp
    simp only [reserved, begin, List.countP_append, List.countP_singleton, Option.isSome_some,
      if_true]
    omega
  returns := fun _ hr => by cases hr
  frees := fun hf => hf.elim
  stays := fun _ _ => rfl
  lends := fun i hi => .inl (List.mem_map_of_mem hi)
  pending := by
    rintro id ⟨c, hc, hid, hk, halive⟩
    rcases List.mem_append.1 hc with hc | hc
    · exact ⟨c, hc, hid, hk, halive⟩
    · obtain rfl := List.mem_singleton.1 hc
      cases purpose with
      | request key => exact absurd rfl (h.background _ hp key)
      | replacement => cases hk
      | growth => cases hk

/-- A creation ends.  It was going on before. -/
theorem dwindles_endCreation (h : Balanced born p 0 0 []) (hd : p.drained = true)
    {outcome : Except InterpreterError Interpreter}
    (ha : (Move.endCreation id outcome).Allowed p) :
    Dwindles (.endCreation id outcome) p (p.endCreation id outcome) where
  drained := hd
  planned := List.Sublist.refl _
  reserved := by
    rw [reserved, reserved, endCreation, List.countP_map]
    refine Nat.add_le_add_left (Nat.le_of_eq (List.countP_congr fun c _ => ?_)) _
    rw [Function.comp_apply]
    split <;> rfl
  returns := fun _ hr => by cases hr
  frees := fun hf => hf.elim
  stays := fun _ _ => rfl
  lends := fun i hi => .inl (List.mem_map_of_mem hi)
  pending := by
    rintro id' ⟨c, hc, hid, hk, halive⟩
    obtain ⟨⟨d, hd, hdid, hnone⟩, -⟩ := ha
    obtain ⟨e, he, rfl⟩ := List.mem_map.1 hc
    split at hid
    · rename_i heid
      obtain rfl := h.creation_unique hd he (hdid.trans (beq_iff_eq.1 heid).symm)
      rw [if_pos heid] at hk
      refine ⟨d, hd, hid, hk, ?_⟩
      rw [Creation.isAlive, Option.isNone_iff_eq_none.1 hnone]
    · rename_i heid
      rw [if_neg heid] at hk halive
      exact ⟨e, he, hid, hk, halive⟩

/-- A borrower of a drained pool does something. -/
theorem dwindles_onLoan (hd : p.drained = true)
    {use : Interpreter → Transition (Unit × Interpreter)} (hu : IsUse use)
    (hl : p.loan? id = some i) (w : World) : Dwindles (.onLoan id use) p { p with
      loans := p.loans.map fun other => if other.id == id then ((use i).run w).1.2 else other } where
  drained := hd
  planned := List.Sublist.refl _
  reserved := Nat.le_refl _
  returns := fun _ hr => by cases hr
  frees := fun hf => hf.elim
  stays := fun _ _ => rfl
  lends := fun j hj => .inl <| by
    obtain ⟨other, ho, rfl⟩ := List.mem_map.1 hj
    split
    · obtain ⟨executing, tainted, wasReset, huse⟩ := hu i w
      rw [huse]
      exact List.mem_map.2 ⟨i, (loan?_eq_some hl).1, rfl⟩
    · exact List.mem_map_of_mem ho
  pending := fun _ hp => hp

/-- **What a move of a drained pool does.** -/
theorem Step.dwindles (h : Balanced born p 0 0 []) (hd : p.drained = true) (s : Step p m q) :
    Dwindles m p q := by
  obtain ⟨hclosed, hidle, -, -, -⟩ := h.emptied hd
  obtain ⟨ha, w, w', hrun⟩ := s
  have hpure : ∀ {r : Pool}, m.apply p = pure r → Dwindles m p r → Dwindles m p q :=
    fun he h => Ensures.of_run (he ▸ ensures_pure h) hrun
  cases m with
  | request key now =>
    have hmove : Ensures (p.request key now) fun r => Dwindles (.request key now) p r.2 := by
      rw [request_closed hclosed]
      exact ensures_pure (.of_eq hd rfl rfl rfl rfl (fun _ hr => by cases hr) fun hf => hf)
    exact hmove.snd.of_run hrun
  | resume key now =>
    have hmove : Ensures (p.resume key now) fun r => Dwindles (.resume key now) p r.2 := by
      rw [resume_drained hclosed hidle]
      exact ensures_pure (.of_eq hd rfl rfl rfl rfl (fun _ hr => by cases hr) fun hf => hf)
    exact hmove.snd.of_run hrun
  | turnAway key =>
    exact hpure rfl (.of_eq hd rfl rfl rfl rfl (fun _ hr => by cases hr) fun hf => hf)
  | giveUp key => exact hpure rfl (dwindles_giveUp h hd key)
  | begin purpose => exact hpure rfl (dwindles_begin h hd ha)
  | endCreation id outcome => exact hpure rfl (dwindles_endCreation h hd ha)
  | collect c outcome now => exact (dwindles_collect h hd ha.1 ha.2 now).snd.of_run hrun
  | giveBack id now =>
    obtain ⟨i, hi⟩ := exists_loan? ha
    exact (dwindles_giveBack h hd hi now).of_run hrun
  | onLoan id use =>
    obtain ⟨i, hi, rfl⟩ := Move.effect ha hrun
    exact dwindles_onLoan hd ha.2 hi w
  | grow count =>
    have hmove : Dwindles (.grow count) p (p.grow count).2 := by
      rw [grow_closed hclosed]
      exact .of_eq hd rfl rfl rfl rfl (fun _ hr => by cases hr) fun hf => hf
    exact hpure rfl hmove
  | shrink count =>
    have hmove : Ensures (p.shrink count) fun r => Dwindles (.shrink count) p r.2 := by
      rw [shrink_drained hd]
      exact ensures_pure (.of_eq hd rfl rfl rfl rfl (fun _ hr => by cases hr) fun hf => hf)
    exact hmove.snd.of_run hrun
  | sweep now =>
    have hmove : Ensures (p.sweep now) fun r => Dwindles (.sweep now) p r.2 := by
      refine (sweep_drained hclosed hd hidle now).mono ?_
      rintro r ⟨permits, available, counters, hr⟩
      rw [hr]
      exact .of_eq hd rfl rfl rfl rfl (fun _ hr => by cases hr) fun hf => hf
    exact hmove.snd.of_run hrun
  | look now => exact hpure rfl (.of_eq hd rfl rfl rfl rfl (fun _ hr => by cases hr) fun hf => hf)
  | notePrewarmed =>
    exact hpure rfl (.of_eq hd rfl rfl rfl rfl (fun _ hr => by cases hr) fun hf => hf)
  | scratch change =>
    exact hpure rfl (.of_eq hd rfl rfl rfl rfl (fun _ hr => by cases hr) fun hf => hf)
  | close => exact hpure rfl (.of_eq hd rfl rfl rfl rfl (fun _ hr => by cases hr) fun hf => hf)
  | drain => exact absurd (hd.symm.trans ha.2) Bool.false_ne_true.symm

/-! ## Runs -/

/-- A pool that was closed stays closed. -/
theorem Path.closed (h : Path start ms log p) (hc : start.closed = true) : p.closed = true := by
  induction h with
  | refl => exact hc
  | step _ s ih =>
    obtain ⟨-, w, w', hrun⟩ := s
    exact (Move.closed _ ih).of_run hrun

/-- A pool that was drained stays drained. -/
theorem Path.drained (h : Path start ms log p) (hb : Balanced born start 0 0 [])
    (hd : start.drained = true) : p.drained = true := by
  induction h with
  | refl => exact hd
  | step h s ih =>
    obtain ⟨born', hb'⟩ := h.balanced hb
    exact (s.dwindles hb' ih).drained

/-- **A pool that was closed comes to its end.**  Requests that begin after it was closed are turned
away, and nothing but the statistics knows of them.  Once it has been drained, then in every later
state, whatever happens, the queue is empty, and the slots are those of the interpreters on loan and
of creations that somebody still wants.  Nothing is planned any more, and whatever is handed back or
was made in the background is discarded and gives up its slot; so all slots are free as soon as the
last loan and the last creation have come to their end. -/
theorem drained_of_run (h : Run config opened ms p) :
    (p.closed = true → ∀ later log q, Path p later log q → ∀ key now, ∃ r,
      q.request key now = pure (.failed .closed, r) ∧ r.total = q.total ∧ r.inUse = q.inUse)
    ∧ (p.drained = true → ∀ later log q, Path p later log q → Emptied q
      ∧ (q.total = 0 ↔ q.loans = [] ∧ q.planned = [] ∧ ∀ c ∈ q.creations, c.purpose = none)
      ∧ ∀ m r, Step q m r → Dwindles m q r) := by
  refine ⟨fun hc later log q hpath key now => ?_, fun hd later log q hpath => ?_⟩
  · exact ⟨_, request_closed (hpath.closed hc) key now, rfl, rfl⟩
  · obtain ⟨born, hb⟩ := hpath.balanced h.balanced
    have hdrained := hpath.drained h.balanced hd
    have hempty := hb.emptied hdrained
    exact ⟨hempty, hempty.total_eq_zero_iff, fun m r s => s.dwindles hb hdrained⟩

/-- A pool is closed and drained while its only interpreter is on loan.  There is one slot left, and
handing the interpreter back frees it. -/
theorem drained_of_run_lent : ∃ ms p, Run single [] ms p ∧ p.drained = true ∧ p.total = 1
    ∧ (∃ q, Step p (.giveBack 1 9) q)
    ∧ ∀ q, Step p (.giveBack 1 9) q → q.total = 0 ∧ q.idle = [] ∧ q.counters.destroyed = 1 := by
  have h₀ : Run single [] [] _ := .start ⟨.empty rfl, Nat.zero_le _⟩
  have h₁ := h₀.step (m := .request 7 3) ⟨List.not_mem_nil, default, _, rfl⟩
  have h₂ := h₁.step (m := .endCreation 1 (.ok firstMade))
    ⟨⟨⟨_, List.mem_cons_self, rfl, rfl⟩, fun i hi => by cases hi; rfl⟩, default, _, rfl⟩
  have h₃ := h₂.step (m := .collect
    { id := 1, purpose := some (.request 7), outcome := some (.ok firstMade) } (.ok firstMade) 5)
    ⟨⟨List.mem_cons_self, rfl⟩, default, _, rfl⟩
  have h₄ := h₃.step (m := .close) ⟨trivial, default, _, rfl⟩
  have h₅ := h₄.step (m := .drain) ⟨⟨rfl, rfl⟩, default, _, rfl⟩
  refine ⟨_, _, h₅, rfl, rfl, ⟨_, List.mem_cons_self, default, _, rfl⟩, fun q s => ?_⟩
  have hafter := (drained_of_run h₅).2 rfl
  obtain ⟨htotal, hdestroyed, -⟩ := ((hafter [] [] _ .refl).2.2 _ q s).returns 1 .loan
  exact ⟨Nat.succ.inj htotal, (hafter _ _ q (Path.refl.step s)).1.idle, hdestroyed⟩

/-! ## What can still be handed out -/

/-- Only what was in the making for a request is handed out by a drained pool. -/
theorem Path.pending (h : Path start ms log p) (hb : Balanced born start 0 0 [])
    (hd : start.drained = true) :
    (∀ id, p.Pending id → start.Pending id) ∧ ∀ id ∈ log, start.Pending id := by
  induction h with
  | refl => exact ⟨fun _ hp => hp, fun id hid => absurd hid List.not_mem_nil⟩
  | @step ms log p q m h s ih =>
    obtain ⟨born', hb'⟩ := h.balanced hb
    have hdwindles := s.dwindles hb' (h.drained hb hd)
    refine ⟨fun id hp => ih.1 id (hdwindles.pending id hp), fun id hid => ?_⟩
    rcases List.mem_append.1 hid with hout | hid
    · obtain ⟨i, hi, rfl⟩ := exists_loan_of_handedOut hout
      exact ih.1 _ ((hdwindles.lends i hi).resolve_left (mem_handedOut.1 hout).2)
    · exact ih.2 id hid

/-- What was made for a request is handed out. -/
theorem handedOut_collect (h : Balanced born p 0 0 []) {c : Creation} (hc : c ∈ p.creations)
    (ho : c.outcome = some (.ok i)) (hk : (Creation.key? c).isSome = true) :
    ∃ q, Step p (.collect c (.ok i) 0) q ∧ c.id ∈ handedOut p q := by
  obtain ⟨key, hkey⟩ := Option.isSome_iff_exists.1 hk
  obtain ⟨hid, -⟩ := h.ended c hc i ho
  have hcollect : p.collect c (.ok i) 0
      = pure (some (key, .lent i.id), (p.dropCreation c.id).noteCreated.lend i 0) := by
    unfold collect
    rw [Creation.key?_eq_some hkey]
  refine ⟨(p.dropCreation c.id).noteCreated.lend i 0, ⟨⟨hc, ho⟩, default, default, ?_⟩, ?_⟩
  · show (do return (← p.collect c (.ok i) 0).2 : Transition Pool).run default = _
    rw [hcollect]
    rfl
  · refine mem_handedOut.2 ⟨?_, fun hin => ?_⟩
    · exact List.mem_map.2 ⟨i.lent, List.mem_append_right _ List.mem_cons_self, hid⟩
    · obtain ⟨j, hj, hjid⟩ := List.mem_map.1 hin
      exact h.creation_ne_loan hc hj hjid.symm

/-- An interpreter in the making for a request can be handed out, whether the pool is open or not.
-/
theorem exists_path_of_pending (h : Balanced born p 0 0 []) (hp : p.Pending id) :
    ∃ later log q, Path p later log q ∧ id ∈ log := by
  obtain ⟨c, hc, rfl, hk, halive⟩ := hp
  cases ho : c.outcome with
  | some outcome =>
    cases outcome with
    | error e =>
      rw [Creation.isAlive, ho] at halive
      cases halive
    | ok i =>
      obtain ⟨q, s, hout⟩ := handedOut_collect h hc ho hk
      exact ⟨_, _, q, Path.refl.step s, List.mem_append_left _ hout⟩
  | none =>
    -- it goes on, and it may succeed
    let i : Interpreter := { id := c.id, state := 0, baseline := default, lastUsed := 0 }
    have s : Step p (.endCreation c.id (.ok i)) (p.endCreation c.id (.ok i)) :=
      ⟨⟨⟨c, hc, rfl, ho ▸ rfl⟩, fun j hj => by cases hj; rfl⟩, default, default, rfl⟩
    have hmem : { c with outcome := some (.ok i) } ∈ (p.endCreation c.id (.ok i)).creations :=
      List.mem_map.2 ⟨c, hc, if_pos (beq_self_eq_true c.id)⟩
    obtain ⟨q, s', hout⟩ := handedOut_collect (s.balanced h) hmem rfl hk
    exact ⟨_, _, q, (Path.refl.step s).step s', List.mem_append_left _ hout⟩

/-- **What can be handed out after a pool was drained** is exactly what was in the making for a
request at that moment. -/
theorem exists_path_handedOut (h : Balanced born p 0 0 []) (hd : p.drained = true) (id : Nat) :
    (∃ later log q, Path p later log q ∧ id ∈ log) ↔ p.Pending id :=
  ⟨fun ⟨_, _, _, hpath, hid⟩ => (hpath.pending h hd).2 id hid, exists_path_of_pending h⟩

end Pool
end ScriptPool
