import ScriptPool.Proofs.Config.Normal

/-!
# What normalizing settles

There is a rule for each setting that a pool could not work with, and normalizing puts another value
in the place of one that breaks its rule.  Two of the rules are about a size that has to stay within
the maximal size, which may have been replaced itself; so they are meant with the maximal size that
there is afterwards.

A configuration that keeps all rules is left as it is, and what comes of normalizing keeps them all,
so normalizing twice is normalizing once.  What can still be said against such a configuration is
about its thresholds and tunables, for which there are no rules, or not enough of them: what is not
a number is not at most zero, so it stays.

## What is here

* `Ruled` — the settings, with the rule for each of them.
* `accepts_normalized`, `same_of_accepts` — normalizing keeps the rules and what keeps them.
* `Objection` — what validation may have against thresholds and tunables.
* `normalized_settles` — **what normalizing does to a configuration.**
-/

set_option autoImplicit false

namespace ScriptPool

/-! ## Replacing a value -/

section Replacing

theorem orIfZero_ne_zero {default : Nat} (h : default ≠ 0) (n : Nat) :
    orIfZero default n ≠ 0 := by
  rw [orIfZero]
  split
  · exact h
  · assumption

theorem orIfZero_of_ne_zero {default n : Nat} (h : n ≠ 0) : orIfZero default n = n := if_neg h

theorem Duration.isZero_iff {d : Duration} : d.isZero = true ↔ d = zero := by
  rw [isZero, beq_iff_eq]
  exact ⟨fun h => congrArg Duration.mk h, fun h => congrArg Duration.nanos h⟩

theorem Duration.orIfZero_ne_zero {default : Duration} (h : default ≠ zero) (d : Duration) :
    orIfZero default d ≠ zero := by
  rw [orIfZero]
  split
  · exact h
  · exact fun hzero => absurd (isZero_iff.2 hzero) ‹_›

theorem Duration.orIfZero_of_ne_zero {default d : Duration} (h : d ≠ zero) :
    orIfZero default d = d := if_neg fun hzero => h (isZero_iff.1 hzero)

theorem orUnlessPositive_not_le {default : Float} (h : ¬ default ≤ 0.0) (x : Float) :
    ¬ orUnlessPositive default x ≤ 0.0 := by
  rw [orUnlessPositive]
  split
  · exact h
  · assumption

theorem orUnlessPositive_of_not_le {default x : Float} (h : ¬ x ≤ 0.0) :
    orUnlessPositive default x = x := if_neg h

end Replacing

namespace PoolConfig

/-! ## The rules

A rule goes with a setting and not with a configuration, so there is one definition with a case for
each of them, and every statement about all settings is a statement about one. -/

/-- The settings that there is a rule for.  How long a borrower waits who gives no deadline is not
among them: this may be left out, and a pool can work with borrowers that do not wait at all. -/
inductive Ruled where
  | maxSize | minSize | preWarmOnInit
  | predictionWindowSize | maxPredictedScaleUp | memoryBlockSize | memoryPoolSize | hookInterval
  | predictionInterval | cleanupInterval | preWarmTimeout | idleTimeout
  | scaleUpThreshold | scaleDownThreshold | healthThreshold

namespace Ruled

/-- The rule for a setting, in a pool of at most `limit` interpreters. -/
def Accepts (limit : Nat) (c : PoolConfig) : Ruled → Prop
  | maxSize => c.maxSize ≠ 0
  | minSize => c.minSize ≤ limit
  | preWarmOnInit => c.preWarmOnInit ≤ limit
  | predictionWindowSize => c.predictionWindowSize ≠ 0
  | maxPredictedScaleUp => c.maxPredictedScaleUp ≠ 0
  | memoryBlockSize => c.memoryBlockSize ≠ 0
  | memoryPoolSize => c.memoryPoolSize ≠ 0
  | hookInterval => c.limits.hookInterval ≠ 0
  | predictionInterval => c.predictionInterval ≠ .zero
  | cleanupInterval => c.cleanupInterval ≠ .zero
  | preWarmTimeout => c.preWarmTimeout ≠ .zero
  | idleTimeout => c.idleTimeout ≠ .zero
  | scaleUpThreshold => ¬ c.scaleUpThreshold ≤ 0.0
  | scaleDownThreshold => ¬ c.scaleDownThreshold ≤ 0.0
  | healthThreshold => ¬ c.healthThreshold ≤ 0.0

/-- Do two configurations have the setting in common? -/
def Same (c c' : PoolConfig) : Ruled → Prop
  | maxSize => c.maxSize = c'.maxSize
  | minSize => c.minSize = c'.minSize
  | preWarmOnInit => c.preWarmOnInit = c'.preWarmOnInit
  | predictionWindowSize => c.predictionWindowSize = c'.predictionWindowSize
  | maxPredictedScaleUp => c.maxPredictedScaleUp = c'.maxPredictedScaleUp
  | memoryBlockSize => c.memoryBlockSize = c'.memoryBlockSize
  | memoryPoolSize => c.memoryPoolSize = c'.memoryPoolSize
  | hookInterval => c.limits.hookInterval = c'.limits.hookInterval
  | predictionInterval => c.predictionInterval = c'.predictionInterval
  | cleanupInterval => c.cleanupInterval = c'.cleanupInterval
  | preWarmTimeout => c.preWarmTimeout = c'.preWarmTimeout
  | idleTimeout => c.idleTimeout = c'.idleTimeout
  | scaleUpThreshold => c.scaleUpThreshold = c'.scaleUpThreshold
  | scaleDownThreshold => c.scaleDownThreshold = c'.scaleDownThreshold
  | healthThreshold => c.healthThreshold = c'.healthThreshold

end Ruled

/-- A configuration with the settings of another one where there is a rule. -/
def withRuledOf (c c' : PoolConfig) : PoolConfig :=
  { c with
    maxSize := c'.maxSize
    minSize := c'.minSize
    preWarmOnInit := c'.preWarmOnInit
    predictionWindowSize := c'.predictionWindowSize
    maxPredictedScaleUp := c'.maxPredictedScaleUp
    memoryBlockSize := c'.memoryBlockSize
    memoryPoolSize := c'.memoryPoolSize
    limits := { c.limits with hookInterval := c'.limits.hookInterval }
    predictionInterval := c'.predictionInterval
    cleanupInterval := c'.cleanupInterval
    preWarmTimeout := c'.preWarmTimeout
    idleTimeout := c'.idleTimeout
    scaleUpThreshold := c'.scaleUpThreshold
    scaleDownThreshold := c'.scaleDownThreshold
    healthThreshold := c'.healthThreshold }

variable {c c' : PoolConfig}

/-- Settings in common need not be taken over. -/
theorem withRuledOf_of_same (h : ∀ r, Ruled.Same c' c r) : c.withRuledOf c' = c := by
  have hlimits : { c.limits with hookInterval := c'.limits.hookInterval } = c.limits :=
    congrArg (fun n => { c.limits with hookInterval := n }) (h .hookInterval)
  rw [withRuledOf, hlimits]
  obtain ⟨⟩ := c
  simp only [mk.injEq, true_and, and_true]
  exact ⟨h .minSize, h .maxSize, h .predictionWindowSize, h .predictionInterval,
    h .scaleUpThreshold, h .scaleDownThreshold, h .maxPredictedScaleUp, h .preWarmOnInit,
    h .preWarmTimeout, h .memoryPoolSize, h .memoryBlockSize, h .idleTimeout, h .healthThreshold,
    h .cleanupInterval⟩

/-- What comes of normalizing keeps the rules. -/
theorem accepts_normalized (c : PoolConfig) (r : Ruled) :
    r.Accepts c.normalized.maxSize c.normalized := by
  cases r with
  | maxSize => exact orIfZero_ne_zero (by decide) _
  | minSize => exact Nat.min_le_right _ _
  | preWarmOnInit => exact Nat.min_le_right _ _
  | predictionWindowSize => exact orIfZero_ne_zero (by decide) _
  | maxPredictedScaleUp => exact orIfZero_ne_zero (by decide) _
  | memoryBlockSize => exact orIfZero_ne_zero (by decide) _
  | memoryPoolSize => exact orIfZero_ne_zero (by decide) _
  | hookInterval => exact orIfZero_ne_zero (by decide) _
  | predictionInterval => exact Duration.orIfZero_ne_zero (by decide) _
  | cleanupInterval => exact Duration.orIfZero_ne_zero (by decide) _
  | preWarmTimeout => exact Duration.orIfZero_ne_zero (by decide) _
  | idleTimeout => exact Duration.orIfZero_ne_zero (by decide) _
  | scaleUpThreshold => exact orUnlessPositive_not_le (by decide +kernel) _
  | scaleDownThreshold => exact orUnlessPositive_not_le (by decide +kernel) _
  | healthThreshold => exact orUnlessPositive_not_le (by decide +kernel) _

/-- What keeps its rule is left as it is. -/
theorem same_of_accepts (r : Ruled) (h : r.Accepts c.normalized.maxSize c) :
    r.Same c.normalized c := by
  cases r with
  | maxSize => exact orIfZero_of_ne_zero h
  | minSize => exact Nat.min_eq_left h
  | preWarmOnInit => exact Nat.min_eq_left h
  | predictionWindowSize => exact orIfZero_of_ne_zero h
  | maxPredictedScaleUp => exact orIfZero_of_ne_zero h
  | memoryBlockSize => exact orIfZero_of_ne_zero h
  | memoryPoolSize => exact orIfZero_of_ne_zero h
  | hookInterval => exact orIfZero_of_ne_zero h
  | predictionInterval => exact Duration.orIfZero_of_ne_zero h
  | cleanupInterval => exact Duration.orIfZero_of_ne_zero h
  | preWarmTimeout => exact Duration.orIfZero_of_ne_zero h
  | idleTimeout => exact Duration.orIfZero_of_ne_zero h
  | scaleUpThreshold => exact orUnlessPositive_of_not_le h
  | scaleDownThreshold => exact orUnlessPositive_of_not_le h
  | healthThreshold => exact orUnlessPositive_of_not_le h

/-- Normalizing changes nothing that there is no rule for. -/
theorem withRuledOf_normalized (c : PoolConfig) : c.withRuledOf c.normalized = c.normalized := rfl

/-- **A configuration that keeps the rules is left as it is.** -/
theorem normalized_of_accepts (h : ∀ r : Ruled, r.Accepts c.maxSize c) : c.normalized = c := by
  have hmax : c.normalized.maxSize = c.maxSize := orIfZero_of_ne_zero (h .maxSize)
  have hsame : ∀ r, Ruled.Same c.normalized c r :=
    fun r => same_of_accepts r (by rw [hmax]; exact h r)
  rw [← withRuledOf_normalized, withRuledOf_of_same hsame]

/-! ## What validation may object to -/

/-- The thresholds that have to be fractions. -/
def thresholds (c : PoolConfig) : List (String × Float) :=
  [("scale_up_threshold", c.scaleUpThreshold), ("scale_down_threshold", c.scaleDownThreshold),
    ("health_threshold", c.healthThreshold)]

/-- What can be said against the thresholds and the tunables of a configuration, if it is so. -/
inductive Objection (c : PoolConfig) : ConfigError → Prop where
  | range {name : String} {x : Float} (hmem : (name, x) ∈ c.thresholds)
      (hx : isFraction x = false) :
      Objection c
        (.invalid (name ++ " must be within [0, 1], got " ++ Decimal.Layout.plain.write x))
  | band (h : c.scaleUpThreshold ≤ c.scaleDownThreshold) :
      Objection c (.invalid
        ("scale_down_threshold " ++ Decimal.Layout.plain.write c.scaleDownThreshold
          ++ " must be below scale_up_threshold " ++ Decimal.Layout.plain.write c.scaleUpThreshold))
  | bounds (h : c.tunables.thresholdCeiling ≤ c.tunables.thresholdFloor) :
      Objection c (.invalid "tunables.threshold_floor must be below threshold_ceiling")
  | fraction (h : isFraction c.tunables.scaleDownFraction = false) :
      Objection c (.invalid "tunables.scale_down_fraction must be within [0, 1]")

section Checks

variable {p : Prop} [Decidable p] {e e' : ConfigError} {r : Except ConfigError Unit}

theorem refusing_eq_error :
    (if p then .error e else r) = .error e' ↔ p ∧ e = e' ∨ ¬ p ∧ r = .error e' := by
  split <;> simp_all

theorem checkFraction_bind_eq_error {name : String} {x : Float} :
    (checkFraction name x >>= fun _ => r) = .error e' ↔
      isFraction x = false
        ∧ .invalid (name ++ " must be within [0, 1], got " ++ Decimal.Layout.plain.write x) = e'
      ∨ isFraction x = true ∧ r = .error e' := by
  rw [checkFraction]
  split <;> simp_all [bind, Except.bind]

end Checks

theorem objection_of_validate {e : ConfigError} (hmax : c.maxSize ≠ 0)
    (hmin : c.minSize ≤ c.maxSize) (h : c.validate = .error e) : c.Objection e := by
  rw [validate, if_neg hmax, if_neg (Nat.not_lt.2 hmin)] at h
  simp only [error_bind, refusing_eq_error, checkFraction_bind_eq_error, pure, Except.pure] at h
  rcases h with ⟨hx, rfl⟩ | ⟨-, ⟨hx, rfl⟩ | ⟨-, ⟨hx, rfl⟩ | ⟨-, ⟨hband, rfl⟩ | ⟨-, ⟨hbounds, rfl⟩
    | ⟨-, ⟨hfraction, rfl⟩ | ⟨-, h⟩⟩⟩⟩⟩⟩
  · exact .range (.head _) hx
  · exact .range (.tail _ (.head _)) hx
  · exact .range (.tail _ (.tail _ (.head _))) hx
  · exact .band hband
  · exact .bounds hbounds
  · exact .fraction (by rwa [Bool.not_eq_true'] at hfraction)
  · cases h

/-- **What normalizing does to a configuration.**  Doing it again changes nothing.  All rules are
kept afterwards, so validation can only object to thresholds and tunables.  Settings that keep their
rules, and those that there is no rule for, are as they were. -/
theorem normalized_settles (c : PoolConfig) :
    c.normalized.normalized = c.normalized
    ∧ (∀ r : Ruled, r.Accepts c.normalized.maxSize c.normalized)
    ∧ (∀ e, c.normalized.validate = .error e → c.normalized.Objection e)
    ∧ (∀ r : Ruled, r.Accepts c.normalized.maxSize c → r.Same c.normalized c)
    ∧ c.withRuledOf c.normalized = c.normalized := by
  have hrules := accepts_normalized c
  exact ⟨normalized_of_accepts hrules, hrules,
    fun e => objection_of_validate (hrules .maxSize) (hrules .minSize),
    fun r => same_of_accepts r, withRuledOf_normalized c⟩

/-- A configuration with next to nothing in it that a pool could work with. -/
def neglected : PoolConfig :=
  { minSize := 20, maxSize := 0, preWarmOnInit := 50, predictionWindowSize := 0,
    predictionInterval := .zero, idleTimeout := .zero, cleanupInterval := .zero,
    scaleUpThreshold := 0.0, scaleDownThreshold := 2.0, healthThreshold := 0.0 }

/-- The sizes are cut to the maximal size that is put in; the lower threshold keeps its rule and is
objected to. -/
theorem normalized_settles_neglected :
    neglected.normalized.normalized = neglected.normalized
    ∧ neglected.normalized.maxSize = 10 ∧ neglected.normalized.minSize = 10
    ∧ neglected.normalized.scaleDownThreshold = neglected.scaleDownThreshold
    ∧ neglected.normalized.Objection
        (.invalid "scale_down_threshold must be within [0, 1], got 2") := by
  obtain ⟨hagain, -, hobjection, hsame, -⟩ := normalized_settles neglected
  have hpositive : ¬ neglected.scaleDownThreshold ≤ 0.0 := by decide +kernel
  have hrefused : neglected.normalized.validate
      = .error (.invalid "scale_down_threshold must be within [0, 1], got 2") := by decide +kernel
  exact ⟨hagain, rfl, rfl, hsame .scaleDownThreshold hpositive, hobjection _ hrefused⟩

end PoolConfig
end ScriptPool
