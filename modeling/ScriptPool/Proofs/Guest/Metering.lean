import Mathlib.Logic.Relation
import ScriptPool.Guest.Execution
import ScriptPool.Proofs.Budget

/-!
# How instructions are accounted for

Every `interval` instructions the clock goes on and the budget of the state is charged, once for
each of these intervals, and nothing else that evaluation does touches the budget.  What is executed
on the side takes its time as well, but coroutines are in no interval, and an interval that is over
in a finalizer goes by.  So what an execution did to the account is a number of charges at the
moments when they were due, with less than an interval pending, and some instructions that are
charged to nobody.

## What is here

* `GuestState.Move` — one change that evaluation makes, with the account as it should be.
* `GuestState.moves_advance`, `GuestState.moves_chargeTimes` — executing instructions.
* `GuestState.Metered`, `GuestState.Moves.metered` — **evaluation charges for every interval** while
  it charges at all, and for none otherwise.
* `GuestState.instructions`, `GuestState.instructions_advance` — what is counted.
* `GuestState.IsFree.advance` — **where nothing is charged or counted, nothing is ever exhausted.**
-/

set_option autoImplicit false

namespace ScriptPool
namespace GuestState

open Relation

/-! ## Moves

Charges belong to the thread that scripts are run on, and come only while the hook does its work
there; time that is not charged passes only while it does not. -/

/-- A state after one charge. -/
def charged (g : GuestState) : GuestState :=
  { g with
    clock := g.clock + g.budget.interval * instructionNanos
    budget := (g.budget.charge (g.clock + g.budget.interval * instructionNanos)).2 }

/-- A change that evaluation makes, with time and the budget accounted for as they should be. -/
inductive Move (g : GuestState) : GuestState → Prop where
  | charge (charging : g.hook = .charging) : g.Move g.charged
  /-- Instructions are executed that are not charged yet. -/
  | wait (counting : g.hook ≠ .absent) (pending : Nat)
      (h : 0 < g.budget.interval → pending < g.budget.interval) : g.Move { g with pending }
  /-- Instructions are executed that are never charged. -/
  | skip (quiet : g.hook ≠ .charging) (n : Nat) : g.Move { g with
      clock := g.clock + n * instructionNanos
      uncharged := g.uncharged + n }
  | modifyTable (id : Nat) (f : GuestTable → GuestTable) : g.Move (g.modifyTable id f)
  | newTable (t : GuestTable) : g.Move (g.newTable t).2
  | newFunction (f : Closure) (guest : ∀ target c, f ≠ .trampoline target c) :
      g.Move (g.newFunction f).2
  | newThread (body : Nat) : g.Move (g.newThread body).2
  | setStatus (thread : Nat) (status : CoroutineStatus) : g.Move (g.setStatus thread status)

/-- Such changes one after the other. -/
abbrev Moves : GuestState → GuestState → Prop := ReflTransGen Move

variable {g g' g'' : GuestState}

theorem Moves.sameTerms (h : g.Moves g') : g.budget.SameTerms g'.budget := by
  induction h with
  | refl => exact .refl _
  | tail _ hmove ih =>
    cases hmove with
    | charge => exact ih.trans (Budget.sameTerms_charge _ _)
    | _ => exact ih

theorem moves_chargeTimes (times : Nat) : ∀ {g : GuestState}, g.hook = .charging →
    g.Moves (g.chargeTimes times).2 ∧ (g.chargeTimes times).2.hook = .charging := by
  induction times with
  | zero => exact fun h => ⟨.refl, h⟩
  | succ times ih =>
    intro g h
    have hcharged : g.Moves g.charged := .single (.charge h)
    rw [charged] at hcharged
    rw [chargeTimes]
    split
    · rename_i cause budget hcharge
      rw [hcharge] at hcharged
      refine ⟨hcharged.tail (.wait ?_ 0 id), h⟩
      exact fun habsent => Hook.noConfusion (h.symm.trans habsent)
    · rename_i budget hcharge
      rw [hcharge] at hcharged
      obtain ⟨hrest, hhook⟩ := ih (g := { g with
        clock := g.clock + g.budget.interval * instructionNanos, budget }) h
      exact ⟨hcharged.trans hrest, hhook⟩

theorem advance_of_absent (h : g.hook = .absent) (n : Nat) : g.advance n = (none, { g with
    clock := g.clock + n * instructionNanos
    uncharged := g.uncharged + n }) := by
  simp only [advance, h]

theorem advance_of_muted (h : g.hook = .muted) (n : Nat) : g.advance n = (none, { g with
    clock := g.clock
      + (g.pending + n) / g.budget.interval * g.budget.interval * instructionNanos
    uncharged := g.uncharged + (g.pending + n) / g.budget.interval * g.budget.interval
    pending := (g.pending + n) % g.budget.interval }) := by
  simp only [advance, h]

theorem moves_advance (g : GuestState) (n : Nat) : g.Moves (g.advance n).2 := by
  cases hhook : g.hook with
  | absent =>
    rw [advance_of_absent hhook]
    exact .single (.skip (by rw [hhook]; decide) n)
  | muted =>
    -- the intervals go by, and then some instructions are left
    rw [advance_of_muted hhook]
    refine (ReflTransGen.single (.skip (by rw [hhook]; decide)
      ((g.pending + n) / g.budget.interval * g.budget.interval))).tail ?_
    exact .wait (by rw [hhook]; decide) _ (Nat.mod_lt _)
  | charging =>
    obtain ⟨hcharged, hstays⟩ := moves_chargeTimes ((g.pending + n) / g.budget.interval) hhook
    rw [advance, hhook]
    dsimp only
    split
    · rename_i g' hg'
      rw [hg'] at hcharged hstays
      refine hcharged.tail (.wait (by rw [hstays]; decide) _ fun hpos => ?_)
      rw [hcharged.sameTerms.interval] at hpos ⊢
      exact Nat.mod_lt _ hpos
    · rename_i cause g' hg'
      rwa [hg'] at hcharged

/-! ## The account

An account is read off two states, with the moments of the charges in between.  What was not charged
has moved the clock too, so the moments lie at least an interval apart, and not exactly. -/

/-- The account of a state after an execution.  The budget was charged at the given moments, the
latest first, each of which lies an interval after the one before, and no interval is left that was
to be charged and was not. -/
structure Metered (g g' : GuestState) (moments : List Nat) : Prop where
  budget : g'.budget = g.budget.after (moments.map .charge)
  spaced : (moments ++ [g.clock]).Pairwise fun later earlier =>
    earlier + g.budget.interval * instructionNanos ≤ later
  last : ∀ moment ∈ moments, moment ≤ g'.clock
  clock : g'.clock + g.uncharged * instructionNanos
    = g.clock + moments.length * (g.budget.interval * instructionNanos)
      + g'.uncharged * instructionNanos
  uncharged : g.uncharged ≤ g'.uncharged
  hook : g'.hook = g.hook
  quiet : g.hook ≠ .charging → moments = []
  absent : g.hook = .absent → g'.pending = g.pending
  pending : 0 < g.budget.interval → g.pending < g.budget.interval → g'.pending < g.budget.interval

variable {moments moments' : List Nat}

/-- What leaves the account alone. -/
theorem Metered.of_same (hbudget : g'.budget = g.budget) (hclock : g'.clock = g.clock)
    (huncharged : g'.uncharged = g.uncharged) (hhook : g'.hook = g.hook)
    (hpending : g'.pending = g.pending) : g.Metered g' [] where
  budget := hbudget
  spaced := List.pairwise_singleton _ _
  last _ h := absurd h List.not_mem_nil
  clock := by rw [hclock, huncharged, List.length_nil, Nat.zero_mul, Nat.add_zero]
  uncharged := Nat.le_of_eq huncharged.symm
  hook := hhook
  quiet _ := rfl
  absent _ := hpending
  pending _ h := hpending ▸ h

theorem Metered.refl (g : GuestState) : g.Metered g [] := .of_same rfl rfl rfl rfl rfl

theorem Metered.sameTerms (h : g.Metered g' moments) : g.budget.SameTerms g'.budget := by
  rw [h.budget]
  exact Budget.sameTerms_after _ _

/-- The clock never goes back. -/
theorem Metered.clock_le (h : g.Metered g' moments) : g.clock ≤ g'.clock := by
  have hclock := h.clock
  have huncharged := Nat.mul_le_mul_right instructionNanos h.uncharged
  omega

/-- Later charges come after earlier ones. -/
theorem Metered.trans (h : g.Metered g' moments) (h' : g'.Metered g'' moments') :
    g.Metered g'' (moments' ++ moments) := by
  have hinterval := h.sameTerms.interval
  have hspaced := h'.spaced
  rw [hinterval] at hspaced
  obtain ⟨hlater, -, hafter⟩ := List.pairwise_append.1 hspaced
  refine ⟨?_, ?_, fun moment hm => ?_, ?_, Nat.le_trans h.uncharged h'.uncharged,
    h'.hook.trans h.hook, fun hquiet => ?_, fun habsent => ?_, fun hpos hlt => ?_⟩
  · rw [h'.budget, h.budget, List.map_append, Budget.after_append]
  · rw [List.append_assoc]
    refine List.pairwise_append.2 ⟨hlater, h.spaced, fun later hl earlier he => ?_⟩
    have hbefore : earlier ≤ g'.clock := by
      rcases List.mem_append.1 he with he | he
      · exact h.last earlier he
      · rw [List.mem_singleton.1 he]
        exact h.clock_le
    have hdue := hafter later hl g'.clock List.mem_cons_self
    omega
  · rcases List.mem_append.1 hm with hm | hm
    · exact h'.last moment hm
    · exact Nat.le_trans (h.last moment hm) h'.clock_le
  · have hfirst := h.clock
    have hsecond := h'.clock
    rw [hinterval] at hsecond
    rw [List.length_append, Nat.add_mul]
    omega
  · rw [h.quiet hquiet, h'.quiet (h.hook.symm ▸ hquiet), List.append_nil]
  · exact (h'.absent (h.hook.trans habsent)).trans (h.absent habsent)
  · rw [← hinterval] at hpos ⊢
    exact h'.pending hpos (hinterval ▸ h.pending (hinterval ▸ hpos) hlt)

theorem metered_charged (h : g.hook = .charging) :
    g.Metered g.charged [g.clock + g.budget.interval * instructionNanos] where
  budget := rfl
  spaced := List.pairwise_pair.2 (Nat.le_refl _)
  last moment hm := Nat.le_of_eq (List.mem_singleton.1 hm)
  clock := by rw [List.length_singleton, Nat.one_mul]; rfl
  uncharged := Nat.le_refl _
  hook := rfl
  quiet hquiet := absurd h hquiet
  absent _ := rfl
  pending _ h := h

theorem Move.metered (h : g.Move g') : ∃ moments, g.Metered g' moments := by
  cases h with
  | charge charging => exact ⟨_, metered_charged charging⟩
  | wait counting pending h =>
    refine ⟨[], rfl, List.pairwise_singleton _ _, fun _ h => absurd h List.not_mem_nil, ?_,
      Nat.le_refl _, rfl, fun _ => rfl, fun habsent => absurd habsent counting, fun hpos _ => h hpos⟩
    exact (Metered.refl g).clock
  | skip quiet n =>
    refine ⟨[], rfl, List.pairwise_singleton _ _, fun _ h => absurd h List.not_mem_nil, ?_,
      Nat.le_add_right _ _, rfl, fun _ => rfl, fun _ => rfl, fun _ h => h⟩
    rw [List.length_nil, Nat.zero_mul, Nat.add_mul]
    show g.clock + n * instructionNanos + g.uncharged * instructionNanos = _
    omega
  | _ => exact ⟨[], .of_same rfl rfl rfl rfl rfl⟩

/-- **Evaluation charges for every interval.** -/
theorem Moves.metered (h : g.Moves g') : ∃ moments, g.Metered g' moments := by
  induction h with
  | refl => exact ⟨[], .refl g⟩
  | tail _ hmove ih =>
    obtain ⟨moments, hmoments⟩ := ih
    obtain ⟨moments', hmoments'⟩ := hmove.metered
    exact ⟨_, hmoments.trans hmoments'⟩

/-! ## What is counted

Time passes only by executing instructions, so the clock tells how many there were; those that are
pending are not on it yet. -/

/-- Instructions that were executed, charged or not. -/
def instructions (g : GuestState) : Nat := g.clock / instructionNanos + g.pending

/-- An execution has charged for all intervals of the instructions that were to be charged. -/
theorem Metered.instructions (h : g.Metered g' moments) :
    g'.instructions + g.pending + g.uncharged
      = g.instructions + moments.length * g.budget.interval + g'.pending + g'.uncharged := by
  have hclock := h.clock
  rw [← Nat.mul_assoc] at hclock
  rw [GuestState.instructions, GuestState.instructions]
  unfold instructionNanos at hclock ⊢
  omega

/-- Charges that report nothing are all made. -/
theorem metered_chargeTimes {times : Nat} : ∀ {g g' : GuestState}, g.hook = .charging →
    g.chargeTimes times = (none, g') → ∃ moments, moments.length = times ∧ g.Metered g' moments
      ∧ g'.pending = g.pending ∧ g'.uncharged = g.uncharged := by
  induction times with
  | zero =>
    intro g g' _ h
    cases h
    exact ⟨[], rfl, .refl g, rfl, rfl⟩
  | succ times ih =>
    intro g g' hhook h
    rw [chargeTimes] at h
    split at h
    · cases h
    · rename_i budget hcharge
      have hcharged : g.charged
          = { g with clock := g.clock + g.budget.interval * instructionNanos, budget } := by
        rw [charged, hcharge]
      rw [← hcharged] at h
      obtain ⟨moments, hlength, hrest, hpending, huncharged⟩ := ih (g := g.charged) hhook h
      refine ⟨_, ?_, (metered_charged hhook).trans hrest, hpending, huncharged⟩
      rw [List.length_append, List.length_singleton, hlength]

/-- **Instructions that are all executed are all counted.** -/
theorem instructions_advance {n : Nat} (h : g.advance n = (none, g')) :
    g'.instructions = g.instructions + n := by
  have hinterval := Nat.div_add_mod' (g.pending + n) g.budget.interval
  cases hhook : g.hook with
  | absent =>
    rw [advance_of_absent hhook] at h
    cases h
    show (g.clock + n * instructionNanos) / instructionNanos + g.pending = _
    rw [Nat.add_mul_div_right _ _ (by decide), GuestState.instructions]
    omega
  | muted =>
    rw [advance_of_muted hhook] at h
    cases h
    show (g.clock + (g.pending + n) / g.budget.interval * g.budget.interval * instructionNanos)
      / instructionNanos + (g.pending + n) % g.budget.interval = _
    rw [Nat.add_mul_div_right _ _ (by decide), GuestState.instructions]
    omega
  | charging =>
    rw [advance, hhook] at h
    dsimp only at h
    split at h
    · rename_i v hv
      obtain ⟨moments, hlength, hmetered, hpending, huncharged⟩ := metered_chargeTimes hhook hv
      have hcounted := hmetered.instructions
      cases h
      show v.clock / instructionNanos + (g.pending + n) % v.budget.interval = _
      rw [hmetered.sameTerms.interval]
      rw [GuestState.instructions, hpending, hlength] at hcounted
      omega
    · cases h

end GuestState

/-! ## Budgets that are not armed -/

namespace Budget

variable {b : Budget}

/-- A budget that is not armed does not know about charges. -/
theorem after_charges_of_disarmed (h : b.armed = false) (moments : List Nat) :
    b.after (moments.map .charge) = b := by
  induction moments with
  | nil => rfl
  | cons moment earlier ih => rw [List.map_cons, after, ih, charge_of_disarmed h]

end Budget

namespace GuestState

variable {g g' : GuestState} {moments : List Nat}

theorem Metered.budget_of_disarmed (h : g.Metered g' moments)
    (hdisarmed : g.budget.armed = false) : g'.budget = g.budget := by
  rw [h.budget, Budget.after_charges_of_disarmed hdisarmed]

theorem chargeTimes_of_disarmed (times : Nat) : ∀ {g : GuestState}, g.budget.armed = false →
    (g.chargeTimes times).1 = none := by
  induction times with
  | zero => exact fun _ => rfl
  | succ times ih =>
    intro g h
    rw [chargeTimes, Budget.charge_of_disarmed h]
    exact ih h

/-- Nothing can be exhausted: instructions are not charged, or the budget does not count them. -/
def IsFree (g : GuestState) : Prop := g.hook ≠ .charging ∨ g.budget.armed = false

/-- **Then all instructions are executed**, however many there are. -/
theorem IsFree.advance (h : g.IsFree) (n : Nat) : ∃ g', g.advance n = (none, g') ∧ g'.IsFree
    ∧ g'.instructions = g.instructions + n := by
  rcases hadvance : g.advance n with ⟨cause, g'⟩
  obtain rfl : cause = none := by
    cases hhook : g.hook with
    | absent =>
      rw [advance_of_absent hhook] at hadvance
      exact (congrArg Prod.fst hadvance).symm
    | muted =>
      rw [advance_of_muted hhook] at hadvance
      exact (congrArg Prod.fst hadvance).symm
    | charging =>
      have hdisarmed := h.resolve_left fun hquiet => hquiet hhook
      rw [GuestState.advance, hhook] at hadvance
      have hnone := chargeTimes_of_disarmed ((g.pending + n) / g.budget.interval) hdisarmed
      dsimp only at hadvance
      split at hadvance
      · exact (congrArg Prod.fst hadvance).symm
      · rename_i hcause
        rw [hcause] at hnone
        cases hnone
  obtain ⟨moments, hmoments⟩ := (g.moves_advance n).metered
  rw [hadvance] at hmoments
  refine ⟨g', rfl, ?_, instructions_advance hadvance⟩
  rcases h with hquiet | hdisarmed
  · exact .inl (hmoments.hook.symm ▸ hquiet)
  · exact .inr ((congrArg Budget.armed (hmoments.budget_of_disarmed hdisarmed)).trans hdisarmed)

end GuestState
end ScriptPool
