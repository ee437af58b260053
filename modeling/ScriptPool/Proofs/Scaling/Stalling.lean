import ScriptPool.Proofs.Config.Normal
import ScriptPool.Proofs.Scaling.Ticks

/-!
# When a scaler cannot go on

A step of the thresholds moves them into a range, and there is no moving into a range whose bounds
are not in order.  Validation objects to bounds in the wrong order, but bounds that are not numbers
are in no order at all, so it does not object to them.  With such bounds the scaler goes on until
the first step is called for, and no further.

## What is here

* `UsageWindow.CallsForStep` and `adjusted?_eq` — when a window calls for a step, and which.
* `run?_eq_none` — the looks that a scaler does not survive.
* `stalls_iff_of_valid` — the same for a valid configuration.
-/

set_option autoImplicit false

namespace ScriptPool

/-! ## Steps that cannot be taken -/

/-- Are the bounds of the thresholds numbers in order? -/
def ScalingTunables.IsOrdered (tunables : ScalingTunables) : Prop :=
  tunables.thresholdFloor ≤ tunables.thresholdCeiling

/-- Does usage vary so much, or so little, that the thresholds should be moved? -/
def UsageWindow.CallsForStep (w : UsageWindow) (tunables : ScalingTunables) : Prop :=
  w.isFull = true
    ∧ (tunables.highVariance < w.usageVariance ∨ w.usageVariance < tunables.lowVariance)

instance (w : UsageWindow) (tunables : ScalingTunables) : Decidable (w.CallsForStep tunables) :=
  inferInstanceAs (Decidable (_ ∧ _))

namespace Thresholds

variable {t : Thresholds} {tunables : ScalingTunables} {w : UsageWindow}

theorem stepTo?_eq_none {up down : Float} :
    t.stepTo? tunables up down = none ↔ ¬ tunables.IsOrdered := by
  rw [ScalingTunables.IsOrdered]
  by_cases hordered : tunables.thresholdFloor ≤ tunables.thresholdCeiling
  · simp [stepTo?, clampWithin?, hordered, ← apply_ite some]
  · simp [stepTo?, clampWithin?, hordered]

/-- The thresholds a step further, wherever that is: closer to each other if usage varies a lot, and
further apart if not. -/
def stepped (t : Thresholds) (w : UsageWindow) (tunables : ScalingTunables) : Thresholds :=
  if tunables.highVariance < w.usageVariance then
    ⟨t.scaleUp - tunables.thresholdStep, t.scaleDown + tunables.thresholdStep⟩
  else ⟨t.scaleUp + tunables.thresholdStep, t.scaleDown - tunables.thresholdStep⟩

theorem adjusted?_eq : t.adjusted? w tunables =
    if w.CallsForStep tunables then
      t.stepTo? tunables (t.stepped w tunables).scaleUp (t.stepped w tunables).scaleDown
    else some t := by
  rw [adjusted?, stepped]
  simp only [UsageWindow.CallsForStep]
  by_cases hfull : w.isFull = true
  · by_cases hhigh : tunables.highVariance < w.usageVariance
    · simp [hfull, hhigh]
    · by_cases hlow : w.usageVariance < tunables.lowVariance
      · simp [hfull, hhigh, hlow]
      · simp [hfull, hhigh, hlow]
  · simp [hfull]

theorem adjusted?_eq_none :
    t.adjusted? w tunables = none ↔ w.CallsForStep tunables ∧ ¬ tunables.IsOrdered := by
  rw [adjusted?_eq]
  split <;> simp [stepTo?_eq_none, *]

end Thresholds

/-! ## Looks that are not survived

A run ends at the first look at which a step is called for and cannot be taken.  Until then the
thresholds have not moved at all, since the bounds are the same at every look. -/

/-- A window starts empty, and it has room. -/
theorem UsageWindow.not_callsForStep_ofCapacity (capacity : Nat) (tunables : ScalingTunables) :
    ¬ (ofCapacity capacity).CallsForStep tunables := by
  rintro ⟨hfull, -⟩
  simp only [isFull, length, ofCapacity, List.length_nil, beq_iff_eq] at hfull
  omega

namespace Scaler

variable {k : Scaler} {settings : ScalerSettings} {seen looks : List PoolSnapshot}
  {s : PoolSnapshot}

theorem HasSeen.next?_eq_none (h : HasSeen settings seen k) :
    k.next? s = none ↔ s.size ≠ 0 ∧ settings.adaptive = true ∧ ¬ settings.tunables.IsOrdered
      ∧ (settings.windowAfter (seen ++ [s])).CallsForStep settings.tunables := by
  rw [Scaler.next?_eq_none, ahead?, h.settings, h.window, settings.windowAfter_concat,
    UsageWindow.after]
  by_cases hlooks : s.size ≠ 0 ∧ settings.adaptive = true
  · simp [hlooks, Thresholds.adjusted?_eq_none, and_comm]
  · simp only [hlooks, if_false]
    simp
    tauto

/-- **The looks that a scaler does not survive.**  Somewhere on the way a step is called for, and
the bounds are not in order. -/
theorem run?_eq_none : (new settings).run? looks = none ↔
    settings.adaptive = true ∧ ¬ settings.tunables.IsOrdered
      ∧ ∃ seen, seen <+: looks ∧ (settings.windowAfter seen).CallsForStep settings.tunables := by
  induction looks using List.reverseRecOn with
  | nil =>
    simp [run?, ScalerSettings.windowAfter, UsageWindow.not_callsForStep_ofCapacity]
  | append_singleton seen s ih =>
    rw [run?_concat]
    cases hrun : (new settings).run? seen with
    | none =>
      obtain ⟨hadaptive, hbounds, first, hfirst, hcalls⟩ := ih.1 hrun
      exact iff_of_true rfl
        ⟨hadaptive, hbounds, first, hfirst.trans (List.prefix_append ..), hcalls⟩
    | some k =>
      have hsurvived := mt ih.2 (by simp [hrun])
      rw [Option.bind_some, (run?_new hrun).next?_eq_none]
      constructor
      · rintro ⟨-, hadaptive, hbounds, hcalls⟩
        exact ⟨hadaptive, hbounds, _, List.prefix_rfl, hcalls⟩
      · rintro ⟨hadaptive, hbounds, first, hfirst, hcalls⟩
        obtain rfl | hfirst := List.prefix_concat_iff.1 hfirst
        · refine ⟨fun hempty => ?_, hadaptive, hbounds, hcalls⟩
          -- an empty pool leaves the window as it is, so the step was called for before
          rw [settings.windowAfter_concat, UsageWindow.after, if_pos hempty] at hcalls
          exact hsurvived ⟨hadaptive, hbounds, seen, List.prefix_rfl, hcalls⟩
        · exact absurd ⟨hadaptive, hbounds, first, hfirst, hcalls⟩ hsurvived

end Scaler

/-! ## Valid configurations -/

namespace PoolConfig

variable {c : PoolConfig}

theorem IsValid.isOrdered_iff (h : c.IsValid) : c.tunables.IsOrdered ↔
    c.tunables.thresholdFloor.isNaN = false ∧ c.tunables.thresholdCeiling.isNaN = false :=
  ⟨Decimal.isNaN_of_le,
    fun ⟨hfloor, hceiling⟩ => Decimal.le_of_lt (Decimal.lt_of_not_le hfloor hceiling h.bounds)⟩

/-- **The looks that the scaler of a valid configuration does not survive.**  One of the bounds of
its thresholds is not a number, and a step is called for. -/
theorem stalls_iff_of_valid (h : c.normalized.validate = .ok ()) (looks : List PoolSnapshot) :
    (Scaler.new c.normalized.scalerSettings).run? looks = none ↔
      c.enableAdaptiveThresholds = true
      ∧ (c.tunables.thresholdFloor.isNaN = true ∨ c.tunables.thresholdCeiling.isNaN = true)
      ∧ ∃ seen, seen <+: looks
        ∧ (c.normalized.scalerSettings.windowAfter seen).CallsForStep c.tunables := by
  have hbounds := not_congr (validate_eq_ok.1 h).isOrdered_iff
  rw [not_and_or, Bool.not_eq_false, Bool.not_eq_false] at hbounds
  exact Scaler.run?_eq_none.trans (and_congr_right fun _ => and_congr_left fun _ => hbounds)

/-- A configuration file with a bound that is not a number. -/
def boundless : String :=
  "prediction_window_size = 1\nenable_adaptive_thresholds = true\n\n"
    ++ "[tunables]\nthreshold_floor = nan\n"

/-- A pool with one interpreter out and one idle. -/
def halfUsed : PoolSnapshot := ⟨1, 1, 1, 2, 0.0⟩

/-- The file is accepted, and the scaler does not survive the first look. -/
theorem stalls_iff_of_valid_boundless :
    ∃ c, ofText boundless = .ok c ∧ c.normalized.validate = .ok ()
      ∧ (Scaler.new c.normalized.scalerSettings).run? [halfUsed] = none := by
  have hread : (ofText boundless).toOption.any (fun c =>
      decide (c.normalized.validate = .ok ()) && c.enableAdaptiveThresholds
        && c.tunables.thresholdFloor.isNaN
        && decide ((c.normalized.scalerSettings.windowAfter [halfUsed]).CallsForStep c.tunables))
      = true := by
    decide +kernel
  cases hc : ofText boundless with
  | error e =>
    rw [hc] at hread
    cases hread
  | ok c =>
    simp only [hc, Except.toOption, Option.any_some, Bool.and_eq_true, decide_eq_true_iff] at hread
    obtain ⟨⟨⟨hvalid, hadaptive⟩, hfloor⟩, hcalls⟩ := hread
    exact ⟨c, rfl, hvalid, (stalls_iff_of_valid hvalid _).2
      ⟨hadaptive, .inl hfloor, _, List.prefix_rfl, hcalls⟩⟩

end PoolConfig
end ScriptPool
