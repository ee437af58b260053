import ScriptPool.Proofs.Scaling.Stalling

/-!
# The band between the thresholds

The thresholds start with a band between them, and no step closes it: the two are moved in opposite
directions, each into the same range, and where they meet the step is not taken.  All of this is a
matter of comparing floats, so they have to be numbers.  They are, since sums and differences of
finite floats are numbers, and within finite bounds the results are finite again.

## What is here

* `stepTo?_cases` and `stepTo?_of_fits` — what a step leads to.
* `HasBand.next?_cases` and `HasBand.agree_of_next?` — what a look does to the thresholds.
* `band_of_valid` — the thresholds of a scaler with a valid configuration.
-/

set_option autoImplicit false

namespace ScriptPool

theorem clampWithin?_within {low high x y : Float} (hx : x.isNaN = false)
    (h : clampWithin? low high x = some y) : low ≤ y ∧ y ≤ high := by
  rw [clampWithin?] at h
  split at h
  case isFalse => cases h
  case isTrue hordered =>
    obtain ⟨hlow, hhigh⟩ := Decimal.isNaN_of_le hordered
    obtain rfl := Option.some.inj h
    split
    case isTrue => exact ⟨Decimal.le_self hlow, hordered⟩
    case isFalse hge =>
      split
      case isTrue => exact ⟨hordered, Decimal.le_self hhigh⟩
      case isFalse hle =>
        exact ⟨Decimal.le_of_not_lt hlow hx hge, Decimal.le_of_not_lt hx hhigh hle⟩

theorem clampWithin?_of_within {low high x : Float} (hge : low ≤ x) (hle : x ≤ high)
    (hordered : low ≤ high) : clampWithin? low high x = some x := by
  simp [clampWithin?, hordered, Decimal.not_lt_of_le hge, Decimal.not_lt_of_le hle]

/-- Are the numbers that the thresholds are moved by and kept between finite? -/
structure ScalingTunables.HasFiniteSteps (tunables : ScalingTunables) : Prop where
  step : tunables.thresholdStep.isFinite = true
  floor : tunables.thresholdFloor.isFinite = true
  ceiling : tunables.thresholdCeiling.isFinite = true

namespace Thresholds

/-- Are the thresholds between the bounds? -/
structure LiesWithin (t : Thresholds) (tunables : ScalingTunables) : Prop where
  scaleUp : tunables.thresholdFloor ≤ t.scaleUp ∧ t.scaleUp ≤ tunables.thresholdCeiling
  scaleDown : tunables.thresholdFloor ≤ t.scaleDown ∧ t.scaleDown ≤ tunables.thresholdCeiling

/-- Is there a band between the thresholds? -/
structure IsOpen (t : Thresholds) : Prop where
  scaleUp : t.scaleUp.isFinite = true
  scaleDown : t.scaleDown.isFinite = true
  band : t.scaleDown < t.scaleUp

variable {t t' : Thresholds} {tunables : ScalingTunables} {w : UsageWindow}

/-- Finite floats are numbers, so one of the thresholds is below the other. -/
theorem IsOpen.of_not_le (hup : t.scaleUp.isFinite = true) (hdown : t.scaleDown.isFinite = true)
    (hband : ¬ t.scaleUp ≤ t.scaleDown) : t.IsOpen :=
  ⟨hup, hdown, Decimal.lt_of_not_le (Decimal.isNaN_of_isFinite hdown)
    (Decimal.isNaN_of_isFinite hup) hband⟩

theorem LiesWithin.isOpen (h : t.LiesWithin tunables) (hfinite : tunables.HasFiniteSteps)
    (hband : ¬ t.scaleUp ≤ t.scaleDown) : t.IsOpen :=
  .of_not_le
    (Decimal.isFinite_of_between hfinite.floor hfinite.ceiling h.scaleUp.1 h.scaleUp.2)
    (Decimal.isFinite_of_between hfinite.floor hfinite.ceiling h.scaleDown.1 h.scaleDown.2) hband

/-- **What a step leads to**, if its ends are numbers. -/
theorem stepTo?_cases {up down : Float} (hup : up.isNaN = false) (hdown : down.isNaN = false)
    (hfinite : tunables.HasFiniteSteps) (h : t.stepTo? tunables up down = some t') :
    t' = t ∨ t'.LiesWithin tunables ∧ t'.IsOpen := by
  simp only [stepTo?, bind, Option.bind_eq_some_iff] at h
  obtain ⟨y, hy, z, hz, h⟩ := h
  split at h
  case isTrue => exact .inl (Option.some.inj h).symm
  case isFalse hband =>
    obtain rfl := Option.some.inj h
    have hwithin : LiesWithin ⟨y, z⟩ tunables :=
      ⟨clampWithin?_within hup hy, clampWithin?_within hdown hz⟩
    exact .inr ⟨hwithin, hwithin.isOpen hfinite hband⟩

/-- A step within the bounds is taken, if it leaves a band. -/
theorem stepTo?_of_fits (hordered : tunables.IsOrdered) (hwithin : t'.LiesWithin tunables)
    (hband : t'.scaleDown < t'.scaleUp) :
    t.stepTo? tunables t'.scaleUp t'.scaleDown = some t' := by
  have hopen : ¬ t'.scaleUp ≤ t'.scaleDown := fun hle => Decimal.not_lt_of_le hle hband
  rw [stepTo?, clampWithin?_of_within hwithin.scaleUp.1 hwithin.scaleUp.2 hordered,
    clampWithin?_of_within hwithin.scaleDown.1 hwithin.scaleDown.2 hordered]
  simp [hopen]

theorem isNaN_stepped (hopen : t.IsOpen) (hfinite : tunables.HasFiniteSteps) :
    (t.stepped w tunables).scaleUp.isNaN = false
      ∧ (t.stepped w tunables).scaleDown.isNaN = false := by
  have hstep := hfinite.step
  rw [stepped]
  split
  · exact ⟨Decimal.isNaN_sub hopen.scaleUp hstep, Decimal.isNaN_add hopen.scaleDown hstep⟩
  · exact ⟨Decimal.isNaN_add hopen.scaleUp hstep, Decimal.isNaN_sub hopen.scaleDown hstep⟩

/-- **What comes of thresholds with a band between them.** -/
theorem adjusted?_cases (hopen : t.IsOpen) (hfinite : tunables.HasFiniteSteps)
    (h : t.adjusted? w tunables = some t') :
    t' = t ∨ w.CallsForStep tunables ∧ t'.LiesWithin tunables ∧ t'.IsOpen := by
  rw [adjusted?_eq] at h
  split at h
  case isTrue hcalls =>
    obtain ⟨hup, hdown⟩ := isNaN_stepped (w := w) hopen hfinite
    exact (stepTo?_cases hup hdown hfinite h).imp_right (And.intro hcalls)
  case isFalse => exact .inl (Option.some.inj h).symm

theorem LiesWithin.agree_self (h : t.LiesWithin tunables) : t.agree t = true := by
  simp [agree, Decimal.beq_self (Decimal.isNaN_of_le h.scaleUp.1).2,
    Decimal.beq_self (Decimal.isNaN_of_le h.scaleDown.1).2]

end Thresholds

namespace Scaler

variable {k k' : Scaler} {s : PoolSnapshot} {settings : ScalerSettings}

/-- The thresholds of a scaler with given settings, with a band between them. -/
structure HasBand (settings : ScalerSettings) (k : Scaler) : Prop where
  settings : k.settings = settings
  isOpen : k.thresholds.IsOpen

/-- What a look does to the thresholds, if it does anything. -/
structure Moved (k' : Scaler) (s : PoolSnapshot) (tunables : ScalingTunables) : Prop where
  nonempty : s.size ≠ 0
  called : k'.window.CallsForStep tunables
  within : k'.thresholds.LiesWithin tunables
  isOpen : k'.thresholds.IsOpen

/-- **What a look does to the thresholds.** -/
theorem HasBand.next?_cases (hband : HasBand settings k)
    (hfinite : settings.tunables.HasFiniteSteps) (h : k.next? s = some k') :
    k'.thresholds = k.thresholds ∨ Moved k' s settings.tunables := by
  have hlooked := Looked.of_next? h
  obtain ⟨t, hahead, ht⟩ := hlooked.thresholds
  split at ht
  case isTrue => exact .inl ht
  case isFalse =>
    subst ht
    rw [ahead?, hband.settings] at hahead
    split at hahead
    case isTrue hlook =>
      obtain hsame | ⟨hcalls, hwithin, hopen⟩ :=
        Thresholds.adjusted?_cases hband.isOpen hfinite hahead
      · exact .inl hsame
      · have hwindow : k'.window = k.window.push s.sample := hlooked.window.trans (if_neg hlook.1)
        exact .inr ⟨hlook.1, hwindow ▸ hcalls, hwithin, hopen⟩
    case isFalse => exact .inl (Option.some.inj hahead).symm

/-- A step that is called for is taken, if it stays within the bounds and leaves a band. -/
theorem HasBand.agree_of_next? (hband : HasBand settings k) (hordered : settings.tunables.IsOrdered)
    (h : k.next? s = some k') (hadaptive : settings.adaptive = true) (hsize : s.size ≠ 0)
    (hcalls : k'.window.CallsForStep settings.tunables) {t : Thresholds}
    (ht : t = k.thresholds.stepped k'.window settings.tunables)
    (hwithin : t.LiesWithin settings.tunables) (hopen : t.scaleDown < t.scaleUp) :
    t.agree k'.thresholds = true := by
  have hlooked := Looked.of_next? h
  have hwindow : k'.window = k.window.push s.sample := hlooked.window.trans (if_neg hsize)
  have hadjusted : k.ahead? s = some t := by
    rw [ahead?, hband.settings, if_pos ⟨hsize, hadaptive⟩, ← hwindow, Thresholds.adjusted?_eq,
      if_pos hcalls, ← ht, Thresholds.stepTo?_of_fits hordered hwithin hopen]
  obtain ⟨t', hahead, ht'⟩ := hlooked.thresholds
  obtain rfl := Option.some.inj (hadjusted.symm.trans hahead)
  rw [ht']
  split
  case isTrue hagree => exact hagree
  case isFalse => exact hwithin.agree_self

theorem HasBand.next? (hfinite : settings.tunables.HasFiniteSteps) (h : k.next? s = some k')
    (hband : HasBand settings k) : HasBand settings k' where
  settings := (Looked.of_next? h).settings.trans hband.settings
  isOpen := by
    obtain hsame | hmoved := hband.next?_cases hfinite h
    · exact hsame ▸ hband.isOpen
    · exact hmoved.isOpen

/-- Within the bounds a look keeps the thresholds there. -/
theorem HasBand.within_of_next? (hfinite : settings.tunables.HasFiniteSteps)
    (hband : HasBand settings k) (h : k.next? s = some k')
    (hwithin : k.thresholds.LiesWithin settings.tunables) :
    k'.thresholds.LiesWithin settings.tunables := by
  obtain hsame | hmoved := hband.next?_cases hfinite h
  · exact hsame ▸ hwithin
  · exact hmoved.within

theorem HasBand.within_of_run? (hfinite : settings.tunables.HasFiniteSteps)
    (hband : HasBand settings k) {later : List PoolSnapshot} (hrun : k.run? later = some k')
    (hwithin : k.thresholds.LiesWithin settings.tunables) :
    k'.thresholds.LiesWithin settings.tunables :=
  (run?_keeps (P := fun k => HasBand settings k ∧ k.thresholds.LiesWithin settings.tunables)
    (fun h hkept => ⟨hkept.1.next? hfinite h, hkept.1.within_of_next? hfinite h hkept.2⟩) hrun
    ⟨hband, hwithin⟩).2

end Scaler

namespace PoolConfig

variable {c : PoolConfig}

theorem isFinite_of_isFraction {x : Float} (h : isFraction x = true) : x.isFinite = true := by
  obtain ⟨hge, hle⟩ := isFraction_iff.1 h
  exact Decimal.isFinite_of_between (by decide +kernel) (by decide +kernel) hge hle

theorem IsValid.isOpen (h : c.IsValid) :
    Thresholds.IsOpen ⟨c.scaleUpThreshold, c.scaleDownThreshold⟩ :=
  .of_not_le (isFinite_of_isFraction h.scaleUp) (isFinite_of_isFraction h.scaleDown) h.band

theorem IsValid.isOrdered (h : c.IsValid) (hfinite : c.tunables.HasFiniteSteps) :
    c.tunables.IsOrdered :=
  h.isOrdered_iff.2
    ⟨Decimal.isNaN_of_isFinite hfinite.floor, Decimal.isNaN_of_isFinite hfinite.ceiling⟩

/-- **The thresholds of a scaler with a valid configuration.**  Whatever it looks at, it can go on,
there is a band between its thresholds, and they are the ones that are published.  Once they are
within the bounds they stay there.  They change only when there is an interpreter in the pool and
the window is full and calls for it; if it does, they go a step further, unless that leads out of
the bounds or closes the band. -/
theorem band_of_valid (h : c.normalized.validate = .ok ()) (hfinite : c.tunables.HasFiniteSteps)
    (seen : List PoolSnapshot) :
    ∃ k, (Scaler.new c.normalized.scalerSettings).run? seen = some k
      ∧ k.thresholds.scaleDown < k.thresholds.scaleUp
      ∧ k.stats.thresholds = k.thresholds
      ∧ (∀ later, ∃ k', k.run? later = some k'
          ∧ (k.thresholds.LiesWithin c.tunables → k'.thresholds.LiesWithin c.tunables))
      ∧ ∀ s k', k.next? s = some k' →
          (k'.thresholds ≠ k.thresholds → s.size ≠ 0 ∧ k'.window.CallsForStep c.tunables
            ∧ k'.thresholds.LiesWithin c.tunables)
          ∧ (c.enableAdaptiveThresholds = true → s.size ≠ 0 →
            k'.window.CallsForStep c.tunables →
            ∀ t, t = k.thresholds.stepped k'.window c.tunables → t.LiesWithin c.tunables →
              t.scaleDown < t.scaleUp → t.agree k'.thresholds = true) := by
  have hvalid := validate_eq_ok.1 h
  have hordered : c.normalized.scalerSettings.tunables.IsOrdered := hvalid.isOrdered hfinite
  have hruns : ∀ looks, ∃ k, (Scaler.new c.normalized.scalerSettings).run? looks = some k :=
    fun looks => Option.ne_none_iff_exists'.1 fun hnone =>
      (Scaler.run?_eq_none.1 hnone).2.1 hordered
  obtain ⟨k, hk⟩ := hruns seen
  have hband : Scaler.HasBand c.normalized.scalerSettings k :=
    Scaler.run?_keeps (Scaler.HasBand.next? hfinite) hk ⟨rfl, hvalid.isOpen⟩
  refine ⟨k, hk, hband.isOpen.band, (Scaler.run?_new hk).published, fun later => ?_,
    fun s k' hnext => ⟨fun hchanged => ?_, fun hadaptive hsize hcalls t ht hwithin hopen => ?_⟩⟩
  · obtain ⟨k', hk'⟩ := hruns (seen ++ later)
    rw [Scaler.run?_append, hk, Option.bind_some] at hk'
    exact ⟨k', hk', hband.within_of_run? hfinite hk'⟩
  · obtain hsame | hmoved := hband.next?_cases hfinite hnext
    · exact absurd hsame hchanged
    · exact ⟨hmoved.nonempty, hmoved.called, hmoved.within⟩
  · exact hband.agree_of_next? hordered hnext hadaptive hsize hcalls ht hwithin hopen

/-- A pool whose thresholds follow its usage, after a short while already. -/
def restless : PoolConfig := { predictionWindowSize := 2, enableAdaptiveThresholds := true }

/-- When all interpreters are idle first and out later, the band is narrowed. -/
theorem band_of_valid_restless :
    ∃ k, (Scaler.new restless.normalized.scalerSettings).run?
          [⟨0, 4, 1, 10, 0.0⟩, ⟨4, 0, 1, 10, 0.0⟩] = some k
      ∧ k.thresholds.agree ⟨0.75, 0.25⟩ = true
      ∧ k.thresholds.scaleDown < k.thresholds.scaleUp
      ∧ k.stats.thresholds = k.thresholds := by
  have hvalid : restless.normalized.validate = .ok () := by decide +kernel
  have hfinite : restless.tunables.HasFiniteSteps :=
    ⟨by decide +kernel, by decide +kernel, by decide +kernel⟩
  obtain ⟨k, hk, hband, hpublished, -⟩ :=
    band_of_valid hvalid hfinite [⟨0, 4, 1, 10, 0.0⟩, ⟨4, 0, 1, 10, 0.0⟩]
  have hnarrowed : ((Scaler.new restless.normalized.scalerSettings).run?
      [⟨0, 4, 1, 10, 0.0⟩, ⟨4, 0, 1, 10, 0.0⟩]).any (·.thresholds.agree ⟨0.75, 0.25⟩) = true := by
    decide +kernel
  rw [hk] at hnarrowed
  exact ⟨k, hk, hnarrowed, hband, hpublished⟩

end PoolConfig
end ScriptPool
