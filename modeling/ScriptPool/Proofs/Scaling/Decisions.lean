import ScriptPool.Proofs.Scaling.Ticks

/-!
# What a scaler asks for

How many interpreters to add or to remove is computed in floats, of which nothing is known: the
tunables and the thresholds may be infinite, or not be numbers at all.  It does not matter, because
the result is cut to what there is room for, `Scaler.headroom` when adding and `Scaler.removable`
when removing, and is raised to one before that, not after.  So a decision to add or to remove is
made exactly if it is called for and there is room, and what it asks for can be carried out.

## What is here

* `decision_eq_up` and `decision_eq_down` — when it is decided to add or to remove, and how many.
* `decision_within_bounds` — whatever a scaler has seen, its decisions fit the pool.
-/

set_option autoImplicit false

namespace ScriptPool

/-- How many interpreters a pool has once a decision is carried out. -/
def PoolSnapshot.sizeAfter (s : PoolSnapshot) : ScaleDecision → Nat
  | .up n => s.size + n
  | .down n => s.size - n
  | .keep => s.size

namespace Scaler

/-- How many interpreters may be added. -/
def headroom (k : Scaler) (s : PoolSnapshot) : Nat :=
  min k.settings.maxPredictedScaleUp (s.maxSize - s.size)

/-- The usage to expect after a look at a pool. -/
def expected (k : Scaler) (s : PoolSnapshot) : Float :=
  (k.window.push s.sample).prediction k.settings.tunables

/-- Is more usage expected than the pool should have? -/
def ExpectsMore (k : Scaler) (s : PoolSnapshot) : Prop :=
  s.size ≠ 0 ∧ k.thresholds.scaleUp < k.expected s

/-- Is there less usage than the pool should have, and no more expected? -/
def ExpectsLess (k : Scaler) (s : PoolSnapshot) : Prop :=
  s.size ≠ 0 ∧ ¬ k.thresholds.scaleUp < k.expected s
    ∧ k.expected s < k.thresholds.scaleDown ∧ s.sample.usage < k.thresholds.scaleDown

instance (k : Scaler) (s : PoolSnapshot) : Decidable (k.ExpectsMore s) :=
  inferInstanceAs (Decidable (_ ∧ _))

instance (k : Scaler) (s : PoolSnapshot) : Decidable (k.ExpectsLess s) :=
  inferInstanceAs (Decidable (_ ∧ _))

variable {k : Scaler} {s : PoolSnapshot} {n : Nat} {prediction : Float}

/-! ## The counts -/

theorem growth_le_headroom : k.growth s prediction ≤ k.headroom s := by
  simp only [growth, headroom]
  omega

theorem growth_pos : 0 < k.growth s prediction ↔ 0 < k.headroom s := by
  simp only [growth, headroom]
  omega

theorem reduction_le_removable : k.reduction s ≤ removable s := Nat.min_le_right _ _

theorem reduction_pos : 0 < k.reduction s ↔ 0 < removable s := by
  simp only [reduction]
  omega

/-! ## When they are asked for -/

/-- **The decision.** -/
theorem decision_eq (k : Scaler) (s : PoolSnapshot) :
    k.decision s =
      if k.ExpectsMore s ∧ 0 < k.headroom s then .up (k.growth s (k.expected s))
      else if k.ExpectsLess s ∧ 0 < removable s then .down (k.reduction s)
      else .keep := by
  rw [decision, ← expected, decide]
  simp only [ExpectsMore, ExpectsLess]
  by_cases hempty : s.size = 0
  · simp [hempty]
  by_cases hmore : k.thresholds.scaleUp < k.expected s
  · simp [hempty, hmore, growth_pos]
  · by_cases hroom : removable s = 0
    · simp [hempty, hmore, hroom]
    · simp [hempty, hmore, hroom, Nat.pos_of_ne_zero]

theorem decision_eq_up :
    k.decision s = .up n ↔ k.ExpectsMore s ∧ 0 < k.headroom s ∧ n = k.growth s (k.expected s) := by
  rw [decision_eq]
  split
  · simp_all [eq_comm]
  · split <;> simp_all

theorem decision_eq_down :
    k.decision s = .down n ↔ k.ExpectsLess s ∧ 0 < removable s ∧ n = k.reduction s := by
  rw [decision_eq]
  split
  · simp_all [ExpectsMore, ExpectsLess]
  · split <;> simp_all [eq_comm]

theorem up_fits (h : k.decision s = .up n) : 1 ≤ n ∧ n ≤ k.headroom s := by
  obtain ⟨-, hroom, rfl⟩ := decision_eq_up.1 h
  exact ⟨growth_pos.2 hroom, growth_le_headroom⟩

theorem down_fits (h : k.decision s = .down n) : 1 ≤ n ∧ n ≤ removable s := by
  obtain ⟨-, hroom, rfl⟩ := decision_eq_down.1 h
  exact ⟨reduction_pos.2 hroom, reduction_le_removable⟩

/-- A pool within its limits stays within them, and nothing on loan has to go. -/
theorem sizeAfter_decision (k : Scaler) (s : PoolSnapshot) :
    (s.minSize ≤ s.size → s.minSize ≤ s.sizeAfter (k.decision s))
    ∧ (s.size ≤ s.maxSize → s.sizeAfter (k.decision s) ≤ s.maxSize)
    ∧ s.inUse ≤ s.sizeAfter (k.decision s) := by
  have hsize : s.size = s.inUse + s.available := rfl
  cases hd : k.decision s with
  | up n =>
    have hfits := up_fits hd
    simp only [PoolSnapshot.sizeAfter, headroom] at *
    omega
  | down n =>
    have hfits := down_fits hd
    simp only [PoolSnapshot.sizeAfter, removable] at *
    omega
  | keep =>
    simp only [PoolSnapshot.sizeAfter]
    omega

/-! ## Whatever a scaler has seen -/

/-- **What a scaler asks for fits the pool.**  After any looks at any pools, a decision to add or to
remove is made exactly if it is called for and there is room for it, and asks for no more than that.
So a pool within its limits stays within them, and what is out on loan stays. -/
theorem decision_within_bounds {settings : ScalerSettings} {seen : List PoolSnapshot}
    (hrun : (new settings).run? seen = some k) {d : ScaleDecision}
    (hd : (k.tick s).1 = some d) :
    (∀ n, d = .up n → 1 ≤ n ∧ n ≤ min settings.maxPredictedScaleUp (s.maxSize - s.size))
    ∧ (∀ n, d = .down n → 1 ≤ n ∧ n ≤ min s.available (s.size - s.minSize))
    ∧ (s.minSize ≤ s.size → s.minSize ≤ s.sizeAfter d)
    ∧ (s.size ≤ s.maxSize → s.sizeAfter d ≤ s.maxSize)
    ∧ s.inUse ≤ s.sizeAfter d
    ∧ ((∃ n, d = .up n) ↔
        k.ExpectsMore s ∧ 0 < min settings.maxPredictedScaleUp (s.maxSize - s.size))
    ∧ ((∃ n, d = .down n) ↔ k.ExpectsLess s ∧ 0 < min s.available (s.size - s.minSize)) := by
  obtain rfl : k.decision s = d := by
    rw [tick_fst, Option.map_eq_some_iff] at hd
    exact hd.choose_spec.2
  have hroom : k.headroom s = min settings.maxPredictedScaleUp (s.maxSize - s.size) := by
    rw [headroom, (run?_new hrun).settings]
  rw [← hroom, ← removable]
  obtain ⟨hmin, hmax, hloans⟩ := sizeAfter_decision k s
  exact ⟨fun n => up_fits, fun n => down_fits, hmin, hmax, hloans, by simp [decision_eq_up],
    by simp [decision_eq_down]⟩

/-- Settings under which the fraction of the idle interpreters to remove is not a number. -/
def unmeasured : ScalerSettings :=
  { interval := .ofSecs 30, windowSize := 2, thresholds := ⟨0.8, 0.6⟩, maxPredictedScaleUp := 5,
    adaptive := true, tunables := { scaleDownFraction := 0.0 / 0.0 } }

/-- A pool with more idle interpreters than it has to have. -/
def relaxed : PoolSnapshot := ⟨1, 3, 2, 8, 0.0⟩

/-- One of the three is removed, then. -/
theorem decision_within_bounds_unmeasured :
    ∃ k, (new unmeasured).run? [relaxed, relaxed] = some k
      ∧ (k.tick relaxed).1 = some (.down 1)
      ∧ 1 ≤ min relaxed.available (relaxed.size - relaxed.minSize)
      ∧ relaxed.minSize ≤ relaxed.sizeAfter (.down 1) := by
  have hevaluated : ((new unmeasured).run? [relaxed, relaxed]).bind (fun k => (k.tick relaxed).1)
      = some (.down 1) := by decide +kernel
  obtain ⟨k, hrun, hd⟩ := Option.bind_eq_some_iff.1 hevaluated
  have hfits := decision_within_bounds hrun hd
  exact ⟨k, hrun, hd, (hfits.2.1 1 rfl).2, hfits.2.2.1 (by decide)⟩

end Scaler
end ScriptPool
