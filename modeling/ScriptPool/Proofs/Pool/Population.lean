import ScriptPool.Proofs.Pool.Accounts
import ScriptPool.Proofs.Pool.Traffic

/-!
# How many interpreters there really are

`total` counts slots, and a creation that nobody waits for any more gives its slot up at once,
although it goes on to its end.  Until then it may have an interpreter to show for itself that no
slot is counted for.

## What is here

* `population` — the interpreters that exist, and the creations that may still bring one.
* `Balanced.population` — what `total` counts differs from that by the slots that are still empty,
  on one side, and by the creations that were `abandoned`, on the other.
* `Step.abandoned` — **a move abandons a creation exactly if it gives up the request that a
  living creation is for**, and then one.
* `population_of_run` — the population passes the limit only after that has happened.
* `exists_run_population` — and then it can become as high as one likes.
-/

set_option autoImplicit false

namespace ScriptPool
/-! ## Counting the living

There are two errors in taking `total` for the number of interpreters, one in each direction: a slot
may be reserved while there is nothing to occupy it, and an interpreter may be in the making for
which no slot is counted any more. -/

namespace Creation

/-- Is there an interpreter, or can there still be one?  Not after a failure. -/
def isAlive (c : Creation) : Bool :=
  match c.outcome with
  | some (.error _) => false
  | _ => true

/-- Is it alive with nobody waiting for it? -/
def isAbandoned (c : Creation) : Bool := c.isAlive && !c.purpose.isSome

end Creation

namespace Pool

open Transition

/-- The interpreters that exist, in the queue, on loan, or brought by a creation, and the creations
that go on. -/
def population (p : Pool) : Nat :=
  p.idle.length + p.loans.length + p.creations.countP Creation.isAlive

/-- Slots that are reserved although there is nothing to occupy them: the creation has not begun, or
has failed. -/
def vacant (p : Pool) : Nat :=
  p.planned.length + p.creations.countP fun c => c.purpose.isSome && !c.isAlive

/-- Creations that nobody waits for and that are alive. -/
def abandoned (p : Pool) : Nat := p.creations.countP Creation.isAbandoned

/-- Does a move give up the request that a living creation is for? -/
def Move.Abandons (p : Pool) : Move → Prop
  | .giveUp key => key ∉ p.granted ∧ ∃ c ∈ p.creations, Creation.isFor c key = true ∧ c.isAlive = true
  | _ => False

/-- Those that satisfy one of two conditions, counted by either of them. -/
theorem countP_exchange {α : Type} (a b : α → Bool) (l : List α) :
    l.countP a + l.countP (fun x => b x && !a x) = l.countP b + l.countP (fun x => a x && !b x) := by
  induction l with
  | nil => rfl
  | cons x l ih =>
    simp only [List.countP_cons]
    cases a x <;> cases b x <;>
      simp only [Bool.not_true, Bool.not_false, Bool.and_true, Bool.and_false, Bool.false_eq_true,
        if_true, if_false] <;> omega

variable {born : List Interpreter} {p q : Pool}

/-- **What is counted, and what there is.** -/
theorem Balanced.population (h : Balanced born p 0 0 []) :
    p.population + p.vacant = p.total + p.abandoned := by
  have htotal := h.total
  have hcount : _ = _ + p.creations.countP Creation.isAbandoned :=
    countP_exchange Creation.isAlive (fun c => c.purpose.isSome) p.creations
  simp only [Pool.population, Pool.vacant, Pool.abandoned, reserved] at htotal ⊢
  omega

/-! ## One move -/

/-- No two creations have one number. -/
theorem Balanced.creation_unique (h : Balanced born p 0 0 []) {c d : Creation}
    (hc : c ∈ p.creations) (hd : d ∈ p.creations) (hid : c.id = d.id) : c = d := by
  have hnodup : (p.creations.map (·.id)).Nodup :=
    (List.nodup_append.1 h.numbers.nodup).2.1.of_append_right
  exact List.inj_on_of_nodup_map hnodup hc hd hid

theorem isAbandoned_without (key : Nat) (c : Creation) :
    (Creation.without key c).isAbandoned
      = (c.isAbandoned || (Creation.isFor c key && c.isAlive)) := by
  rw [Creation.without]
  cases hfor : Creation.isFor c key with
  | false =>
    rw [if_neg Bool.false_ne_true, Bool.false_and, Bool.or_false]
  | true =>
    have hp := (Creation.isFor_iff c key).1 hfor
    simp [Creation.isAbandoned, Creation.isAlive, hp]

/-- The creations that nobody waits for after a request was given up. -/
theorem countP_abandoned_without (key : Nat) (l : List Creation) :
    (l.map (Creation.without key)).countP Creation.isAbandoned
      = l.countP Creation.isAbandoned + l.countP fun c => Creation.isFor c key && c.isAlive := by
  induction l with
  | nil => rfl
  | cons c l ih =>
    have hone : ¬ (c.isAbandoned = true ∧ Creation.isFor c key = true) := by
      rintro ⟨habandoned, hfor⟩
      have hp := (Creation.isFor_iff c key).1 hfor
      rw [Creation.isAbandoned, hp, Option.isSome_some, Bool.not_true, Bool.and_false]
        at habandoned
      cases habandoned
    rw [List.map_cons, List.countP_cons, List.countP_cons, List.countP_cons, ih,
      isAbandoned_without]
    cases ha : c.isAbandoned <;> cases hf : Creation.isFor c key <;> cases c.isAlive <;>
      simp_all <;> omega

/-- Nobody waits for two creations. -/
theorem Balanced.countP_isFor_le (h : Balanced born p 0 0 []) (key : Nat) :
    p.creations.countP (Creation.isFor · key) ≤ 1 := by
  rw [← count_keys_creations]
  exact List.nodup_iff_count_le_one.1 h.keys.of_append_right key

/-- A creation that has ended was alive before. -/
theorem countP_abandoned_endCreation (l : List Creation) (id : Nat)
    (outcome : Except InterpreterError Interpreter)
    (h : ∀ c ∈ l, c.id = id → c.outcome = none) :
    (l.map fun c => if c.id == id then { c with outcome := some outcome } else c).countP
        Creation.isAbandoned
      ≤ l.countP Creation.isAbandoned := by
  rw [List.countP_map]
  refine List.countP_mono_left fun c hc habandoned => ?_
  rw [Function.comp_apply] at habandoned
  split at habandoned
  · rename_i hid
    have hnone := h c hc (beq_iff_eq.1 hid)
    rw [Creation.isAbandoned, Bool.and_eq_true] at habandoned
    rw [Creation.isAbandoned, habandoned.2, Creation.isAlive, hnone]
    rfl
  · exact habandoned

/-- A creation that begins is wanted. -/
theorem Receives.abandoned_begin {queued lent : List Interpreter} (h : Receives queued lent p q)
    (purpose : Purpose) : (q.begin purpose).abandoned = p.abandoned := by
  rw [Pool.abandoned, Pool.begin, List.countP_append, h.creations]
  rfl

theorem Served.abandoned {key : Nat} (h : Served key p q) : q.abandoned = p.abandoned := by
  cases h with
  | waiting h => exact congrArg (List.countP Creation.isAbandoned) h.creations
  | lent _ _ h => exact congrArg (List.countP Creation.isAbandoned) h.creations
  | creating h => exact h.abandoned_begin _

/-- Giving up a request abandons the creation for it, if that is alive, and no other. -/
theorem abandoned_giveUp (h : Balanced born p 0 0 []) (key : Nat)
    (hq : q.creations
      = if key ∈ p.granted then p.creations else p.creations.map (Creation.without key)) :
    ((Move.giveUp key).Abandons p → q.abandoned = p.abandoned + 1)
    ∧ (¬ (Move.giveUp key).Abandons p → q.abandoned = p.abandoned) := by
  rw [Pool.abandoned, hq, Pool.abandoned]
  by_cases hg : key ∈ p.granted
  · rw [if_pos hg]
    exact ⟨fun hm => absurd hg hm.1, fun _ => rfl⟩
  · rw [if_neg hg, countP_abandoned_without]
    refine ⟨fun hm => ?_, fun hm => ?_⟩
    · obtain ⟨-, c, hc, hfor, halive⟩ := hm
      have hpos : 0 < p.creations.countP fun c => Creation.isFor c key && c.isAlive :=
        List.countP_pos_iff.2 ⟨c, hc, Bool.and_eq_true _ _ ▸ ⟨hfor, halive⟩⟩
      have hone := h.countP_isFor_le key
      have hle : (p.creations.countP fun c => Creation.isFor c key && c.isAlive)
          ≤ p.creations.countP (Creation.isFor · key) :=
        List.countP_mono_left fun c _ hboth => (Bool.and_eq_true _ _ ▸ hboth).1
      omega
    · refine Nat.add_eq_left.2 (List.countP_eq_zero.2 fun c hc hboth => ?_)
      rw [Bool.and_eq_true] at hboth
      exact hm ⟨hg, c, hc, hboth⟩

/-- **A move abandons a creation exactly if it gives up the request that a living creation is for.**
-/
theorem Step.abandoned {m : Move} (h : Balanced born p 0 0 []) (s : Step p m q) :
    (m.Abandons p → q.abandoned = p.abandoned + 1)
    ∧ (¬ m.Abandons p → q.abandoned ≤ p.abandoned) := by
  obtain ⟨ha, w, w', hrun⟩ := s
  have heffect := Move.effect ha hrun
  have hsame : q.creations = p.creations → q.abandoned ≤ p.abandoned := fun he =>
    Nat.le_of_eq (congrArg (List.countP Creation.isAbandoned) he)
  cases m with
  | giveUp key =>
    obtain ⟨hone, hnone⟩ := abandoned_giveUp h key heffect.creations
    exact ⟨hone, fun hm => Nat.le_of_eq (hnone hm)⟩
  | request key now => exact ⟨False.elim, fun _ => Nat.le_of_eq heffect.abandoned⟩
  | resume key now => exact ⟨False.elim, fun _ => Nat.le_of_eq heffect.abandoned⟩
  | begin purpose =>
    obtain ⟨r, hr, rfl⟩ := heffect
    exact ⟨False.elim, fun _ => Nat.le_of_eq (hr.abandoned_begin purpose)⟩
  | endCreation id outcome =>
    obtain rfl : q = p.endCreation id outcome := heffect
    refine ⟨False.elim, fun _ => countP_abandoned_endCreation p.creations id outcome ?_⟩
    obtain ⟨⟨c, hc, hid, hnone⟩, -⟩ := ha
    intro d hd hdid
    obtain rfl := h.creation_unique hd hc (hdid.trans hid.symm)
    exact Option.isNone_iff_eq_none.1 hnone
  | collect c outcome now =>
    have hdrop : q.creations = (p.dropCreation c.id).creations → q.abandoned ≤ p.abandoned :=
      fun he => by
        rw [Pool.abandoned, he]
        exact List.filter_sublist.countP_le
    rcases heffect with ⟨-, h⟩ | ⟨-, -, h⟩ | ⟨-, -, h⟩
    · exact ⟨False.elim, fun _ => hdrop h.creations⟩
    · exact ⟨False.elim, fun _ => hdrop h.creations⟩
    · exact ⟨False.elim, fun _ => hdrop h.creations⟩
  | giveBack id now =>
    obtain ⟨i, -, h | ⟨-, -, h⟩⟩ := heffect
    · exact ⟨False.elim, fun _ => hsame h.creations⟩
    · exact ⟨False.elim, fun _ => hsame h.creations⟩
  | onLoan id use =>
    obtain ⟨i, -, rfl⟩ := heffect
    exact ⟨False.elim, fun _ => Nat.le_refl _⟩
  | turnAway key => exact ⟨False.elim, fun _ => hsame heffect.creations⟩
  | grow count => exact ⟨False.elim, fun _ => hsame heffect.creations⟩
  | shrink count => exact ⟨False.elim, fun _ => hsame heffect.creations⟩
  | sweep now => exact ⟨False.elim, fun _ => hsame heffect.creations⟩
  | look now => exact ⟨False.elim, fun _ => hsame heffect.creations⟩
  | notePrewarmed => exact ⟨False.elim, fun _ => hsame heffect.creations⟩
  | scratch change => exact ⟨False.elim, fun _ => hsame heffect.creations⟩
  | close => exact ⟨False.elim, fun _ => hsame heffect.creations⟩
  | drain => exact ⟨False.elim, fun _ => hsame heffect.creations⟩

/-! ## Runs -/

variable {config : PoolConfig} {opened : List Interpreter} {ms : List Move}

/-- If a creation is abandoned, then some move abandoned it. -/
theorem Run.exists_abandons (h : Run config opened ms p) (hpos : 0 < p.abandoned) :
    ∃ later m before q, ms = later ++ m :: before ∧ Run config opened before q ∧ m.Abandons q := by
  induction h with
  | start h =>
    rw [Pool.abandoned, h.1.inside.2.2] at hpos
    exact absurd hpos (Nat.lt_irrefl 0)
  | @step ms p p' m hrun s ih =>
    by_cases hm : m.Abandons p
    · exact ⟨[], m, ms, p, rfl, hrun, hm⟩
    · have hle := (s.abandoned hrun.balanced).2 hm
      obtain ⟨later, m', before, q, rfl, hq⟩ := ih (Nat.lt_of_lt_of_le hpos hle)
      exact ⟨m :: later, m', before, q, rfl, hq⟩

/-- **How many interpreters there are.**  At any moment of any run, what is counted in `total` stays
within the limit, and it differs from the number of interpreters that exist or are in the making by
the slots that are still vacant, on the one side, and by the creations that were abandoned, on the
other.  The next move adds to those exactly if it gives up a request that a living creation is for;
so if there are more interpreters than the limit allows, that has happened before. -/
theorem population_of_run (h : Run config opened ms p) :
    p.population + p.vacant = p.total + p.abandoned
    ∧ p.total ≤ p.config.maxSize
    ∧ (∀ m q, Step p m q → (p.abandoned < q.abandoned ↔ m.Abandons p)
      ∧ q.abandoned ≤ p.abandoned + 1)
    ∧ (p.config.maxSize < p.population → ∃ later m before q, ms = later ++ m :: before
      ∧ Run config opened before q ∧ m.Abandons q) := by
  refine ⟨h.balanced.population, h.balanced.bounded, fun m q s => ?_, fun hlt => ?_⟩
  · obtain ⟨hone, hnone⟩ := s.abandoned h.balanced
    by_cases hm : m.Abandons p
    · have heq := hone hm
      exact ⟨⟨fun _ => hm, fun _ => by omega⟩, Nat.le_of_eq heq⟩
    · have hle := hnone hm
      exact ⟨⟨fun hlt => absurd hlt (Nat.not_lt.2 hle), fun hm' => absurd hm' hm⟩,
        Nat.le_succ_of_le hle⟩
  · have heq := h.balanced.population
    have hle := h.balanced.bounded
    exact h.exists_abandons (by omega)

/-- A request is given up while the interpreter for it is made, and another one begins: one slot is
occupied then, and two interpreters are in the making. -/
theorem population_of_run_overfull : ∃ ms p, Run single [] ms p ∧ p.config.maxSize = 1
    ∧ p.total = 1 ∧ p.population = 2
    ∧ ∃ later m before q, ms = later ++ m :: before ∧ Run single [] before q ∧ m.Abandons q := by
  have h₀ : Run single [] [] _ := .start ⟨.empty rfl, Nat.zero_le _⟩
  have h₁ := h₀.step (m := .request 7 3) ⟨List.not_mem_nil, default, _, rfl⟩
  have h₂ := h₁.step (m := .giveUp 7) ⟨show 7 ∈ [7] by decide, default, _, rfl⟩
  have h₃ := h₂.step (m := .request 8 4) ⟨List.not_mem_nil, default, _, rfl⟩
  exact ⟨_, _, h₃, rfl, rfl, rfl, (population_of_run h₃).2.2.2 (by decide)⟩

/-! ## There is no bound

A request that is given up at once leaves its creation behind and its slot free for the next one.
This can be done over and over, as no creation has to end for it. -/

/-- An empty pool that nobody waits for. -/
structure Vacant (p : Pool) : Prop where
  opened : p.closed = false
  total : p.total = 0
  waiters : p.waiters = []

/-- No slot is reserved in an empty pool. -/
theorem Vacant.vacant (h : Vacant p) (hb : Balanced born p 0 0 []) : p.vacant = 0 := by
  have htotal := hb.total
  have hle : (p.creations.countP fun c => c.purpose.isSome && !c.isAlive)
      ≤ p.creations.countP fun c => c.purpose.isSome :=
    List.countP_mono_left fun c _ hboth => (Bool.and_eq_true _ _ ▸ hboth).1
  rw [h.total, reserved] at htotal
  rw [Pool.vacant]
  omega

/-- Nobody is on the way to an interpreter of an empty pool. -/
theorem Vacant.keys (h : Vacant p) (hb : Balanced born p 0 0 []) :
    p.permits = 0 ∧ p.keys = [] := by
  have htotal := hb.total
  rw [h.total, reserved] at htotal
  have hdrained : p.drained = false := by
    cases hd : p.drained with
    | false => rfl
    | true => exact absurd (h.opened.symm.trans (hb.drained hd).1) Bool.false_ne_true
  have hpermits := hb.permits hdrained
  have hgranted : p.granted = [] := List.eq_nil_of_length_eq_zero (by omega)
  have hunwanted : p.creations.filterMap Creation.key? = [] := by
    have hnone : p.creations.countP (fun c => c.purpose.isSome) = 0 := by omega
    refine List.filterMap_eq_nil_iff.2 fun c hc => ?_
    have hc := List.countP_eq_zero.1 hnone c hc
    rw [Creation.key?, Option.not_isSome_iff_eq_none.1 hc]
  refine ⟨by omega, ?_⟩
  rw [Pool.keys, h.waiters, hgranted, hunwanted]
  rfl

/-- A request to an empty pool that is given up at once leaves a creation behind, and otherwise an
empty pool. -/
theorem Vacant.abandon (hv : Vacant p) (h : Run config opened ms p) (hmax : 0 < p.config.maxSize) :
    ∃ ms' q, Run config opened ms' q ∧ Vacant q ∧ q.config = p.config
      ∧ q.abandoned = p.abandoned + 1 := by
  obtain ⟨hpermits, hkeys⟩ := hv.keys h.balanced
  have hgranted : p.granted = [] :=
    (List.append_eq_nil_iff.1 (List.append_eq_nil_iff.1 hkeys).1).2
  obtain ⟨p₁, hp₁⟩ : ∃ p₁, { p with
      counters := { p.counters with requests := p.counters.requests + 1 }
      recent := p.recent.record 0
      total := p.total + 1 }.begin (.request 0) = p₁ := ⟨_, rfl⟩
  have hrequest : p.request 0 0 = pure (.creating p.nextId, p₁) := by
    have hfree : p.total < p.config.maxSize := hv.total ▸ hmax
    rw [request, serve]
    simp only [hv.opened, hpermits, checkOutAny, reserve?, hfree, pure_bind, if_true,
      Bool.false_eq_true, if_false, ← hp₁]
  have s₁ : Step p (.request 0 0) p₁ := by
    refine ⟨?_, default, default, ?_⟩
    · show 0 ∉ p.keys
      exact hkeys ▸ List.not_mem_nil
    · show StateT.run (do return (← p.request 0 0).2) default = _
      rw [hrequest]
      rfl
  have h₁ := h.step s₁
  have hgiven : (0 : Nat) ∉ p₁.granted := by
    rw [← hp₁]
    show 0 ∉ p.granted
    exact hgranted ▸ List.not_mem_nil
  have hmem : ({ id := p.nextId, purpose := some (.request 0) } : Creation) ∈ p₁.creations := by
    rw [← hp₁]
    exact List.mem_append_right _ List.mem_cons_self
  have hany : p₁.creations.any (Creation.isFor · 0) = true :=
    List.any_eq_true.2 ⟨_, hmem, rfl⟩
  have hkey : 0 ∈ p₁.keys :=
    List.mem_append_right _ (List.mem_filterMap.2 ⟨_, hmem, rfl⟩)
  have s₂ : Step p₁ (.giveUp 0) (p₁.giveUp 0) := ⟨hkey, default, _, rfl⟩
  refine ⟨_, p₁.giveUp 0, h₁.step s₂, ?_, ?_, ?_⟩
  · rw [giveUp, if_neg fun hk => hgiven (List.contains_iff_mem.1 hk), if_pos hany, ← hp₁]
    refine ⟨hv.opened, ?_, hv.waiters⟩
    show lowered (p.total + 1) 1 = 0
    rw [hv.total]
    rfl
  · rw [giveUp, if_neg fun hk => hgiven (List.contains_iff_mem.1 hk), if_pos hany, ← hp₁]
    rfl
  · rw [(s₂.abandoned h₁.balanced).1 ⟨hgiven, _, hmem, rfl, rfl⟩, ← hp₁]
    exact congrArg (· + 1) ((Receives.refl p).abandoned_begin (.request 0))

/-- **Nothing bounds the number of interpreters.**  A pool that may have one interpreter can come to
have any number of them in the making. -/
theorem exists_run_population (n : Nat) : ∃ ms p, Run single [] ms p ∧ p.config.maxSize = 1
    ∧ p.population = n := by
  have hrun : ∃ ms p, Run single [] ms p ∧ Vacant p ∧ p.config.maxSize = 1 ∧ p.abandoned = n := by
    induction n with
    | zero => exact ⟨[], _, .start ⟨.empty rfl, Nat.zero_le _⟩, ⟨rfl, rfl, rfl⟩, rfl, rfl⟩
    | succ n ih =>
      obtain ⟨ms, p, h, hv, hmax, hn⟩ := ih
      obtain ⟨ms', q, h', hv', hconfig, hq⟩ := hv.abandon h (hmax ▸ Nat.zero_lt_one)
      exact ⟨ms', q, h', hv', hconfig ▸ hmax, hn ▸ hq⟩
  obtain ⟨ms, p, h, hv, hmax, hn⟩ := hrun
  have hpopulation := h.balanced.population
  rw [hv.vacant h.balanced, hv.total, hn, Nat.add_zero, Nat.zero_add] at hpopulation
  exact ⟨ms, p, h, hmax, hpopulation⟩

end Pool
end ScriptPool
