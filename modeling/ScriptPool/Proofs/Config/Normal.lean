import ScriptPool.Command.Run
import ScriptPool.Proofs.Decimal.Order

/-!
# Normalizing a valid configuration

Whoever uses a configuration normalizes it first and validates what comes of that.  Normalizing
takes a threshold that is not positive for one that was left out, and puts the default in its place.
But zero is a threshold that validation has nothing against, and as the lower one it makes sense:
a pool that never shrinks.  With the default in its place, the lower threshold need not be below the
upper one any more.

This is the only thing that normalizing can spoil: a valid configuration is refused exactly if it
`LosesBand`.

## What is here

* `validate_eq_ok` — what validation checks, as a structure.
* `IsValid.normalized_iff` and `IsValid.validate_of_losesBand` — what becomes of a valid
  configuration.
* `accepted_of_valid` — the same for those who use it, with the objection that they report.
-/

set_option autoImplicit false

namespace ScriptPool

/-! ## What validation checks -/

namespace PoolConfig

/-- A configuration without contradictions. -/
structure IsValid (c : PoolConfig) : Prop where
  maxSize_ne_zero : c.maxSize ≠ 0
  minSize_le_maxSize : c.minSize ≤ c.maxSize
  scaleUp : isFraction c.scaleUpThreshold = true
  scaleDown : isFraction c.scaleDownThreshold = true
  health : isFraction c.healthThreshold = true
  /-- The lower threshold is below the upper one. -/
  band : ¬ c.scaleUpThreshold ≤ c.scaleDownThreshold
  /-- This is all that is asked of the bounds of the thresholds, so they need not be numbers. -/
  bounds : ¬ c.tunables.thresholdCeiling ≤ c.tunables.thresholdFloor
  scaleDownFraction : isFraction c.tunables.scaleDownFraction = true

section Checks

variable {p : Prop} [Decidable p] {e : ConfigError} {r : Except ConfigError Unit}

theorem refusing_eq_ok : (if p then .error e else r) = .ok () ↔ ¬ p ∧ r = .ok () := by
  split <;> simp_all

theorem checkFraction_of_isFraction {name : String} {x : Float} (h : isFraction x = true) :
    checkFraction name x = .ok () := by
  rw [checkFraction, if_pos h]

theorem checkFraction_bind_eq_ok {name : String} {x : Float} :
    (checkFraction name x >>= fun _ => r) = .ok () ↔ isFraction x = true ∧ r = .ok () := by
  rw [checkFraction]
  split <;> simp_all [bind, Except.bind]

theorem error_bind (f : Unit → Except ConfigError Unit) : (Except.error e >>= f) = .error e := rfl

end Checks

variable {c : PoolConfig}

theorem validate_eq_ok : c.validate = .ok () ↔ c.IsValid := by
  have hiff : c.validate = .ok () ↔ c.maxSize ≠ 0 ∧ c.minSize ≤ c.maxSize
      ∧ isFraction c.scaleUpThreshold = true ∧ isFraction c.scaleDownThreshold = true
      ∧ isFraction c.healthThreshold = true ∧ ¬ c.scaleUpThreshold ≤ c.scaleDownThreshold
      ∧ ¬ c.tunables.thresholdCeiling ≤ c.tunables.thresholdFloor
      ∧ isFraction c.tunables.scaleDownFraction = true := by
    rw [validate]
    simp [error_bind, refusing_eq_ok, checkFraction_bind_eq_ok, pure, Except.pure]
  rw [hiff]
  exact ⟨fun ⟨h₁, h₂, h₃, h₄, h₅, h₆, h₇, h₈⟩ => ⟨h₁, h₂, h₃, h₄, h₅, h₆, h₇, h₈⟩,
    fun h => ⟨h.1, h.2, h.3, h.4, h.5, h.6, h.7, h.8⟩⟩

/-! ## What normalizing makes of it

Most of a valid configuration is left as it is.  What is not is looked at field by field, to see
whether the new value can be objected to where the old one could not. -/

theorem isFraction_iff {x : Float} : isFraction x = true ↔ 0.0 ≤ x ∧ x ≤ 1.0 := by
  rw [isFraction, Bool.and_eq_true, decide_eq_true_iff, decide_eq_true_iff]

theorem isFraction_orUnlessPositive {default x : Float} (hdefault : isFraction default = true)
    (hx : isFraction x = true) : isFraction (orUnlessPositive default x) = true := by
  rw [orUnlessPositive]
  split
  · exact hdefault
  · exact hx

/-- The lower threshold counts as left out, and its default is not below the upper one. -/
def LosesBand (c : PoolConfig) : Prop :=
  c.scaleDownThreshold ≤ 0.0 ∧ c.scaleUpThreshold ≤ standard.scaleDownThreshold

/-- What is said against such a configuration. -/
def bandObjection (c : PoolConfig) : ConfigError :=
  .invalid ("scale_down_threshold 0.2 must be below scale_up_threshold "
    ++ Decimal.Layout.plain.write c.scaleUpThreshold)

instance (c : PoolConfig) : Decidable c.LosesBand := inferInstanceAs (Decidable (_ ∧ _))

namespace IsValid

/-- The upper threshold is not zero, since there is a lower one below it. -/
theorem scaleUp_normalized (h : c.IsValid) :
    c.normalized.scaleUpThreshold = c.scaleUpThreshold :=
  if_neg fun hzero => h.band (Decimal.le_of_le_zero hzero (isFraction_iff.1 h.scaleDown).1)

theorem band_normalized (h : c.IsValid) :
    c.normalized.scaleUpThreshold ≤ c.normalized.scaleDownThreshold ↔ c.LosesBand := by
  have hdown : c.normalized.scaleDownThreshold
      = if c.scaleDownThreshold ≤ 0.0 then standard.scaleDownThreshold
        else c.scaleDownThreshold := rfl
  rw [h.scaleUp_normalized, hdown, LosesBand]
  split
  · rename_i hzero
    exact ⟨fun hle => ⟨hzero, hle⟩, And.right⟩
  · rename_i hzero
    exact ⟨fun hle => absurd hle h.band, fun hlost => absurd hlost.1 hzero⟩

theorem maxSize_normalized (h : c.IsValid) : c.normalized.maxSize = c.maxSize :=
  if_neg h.maxSize_ne_zero

theorem minSize_normalized (h : c.IsValid) : c.normalized.minSize = c.minSize := by
  show min c.minSize c.normalized.maxSize = c.minSize
  rw [h.maxSize_normalized, Nat.min_eq_left h.minSize_le_maxSize]

/-- **A valid configuration stays valid unless it loses its band.** -/
theorem normalized_iff (h : c.IsValid) : c.normalized.IsValid ↔ ¬ c.LosesBand := by
  refine ⟨fun hvalid hlost => hvalid.band (h.band_normalized.2 hlost), fun hband => ?_⟩
  exact {
    maxSize_ne_zero := h.maxSize_normalized ▸ h.maxSize_ne_zero
    minSize_le_maxSize := Nat.min_le_right _ _
    scaleUp := h.scaleUp_normalized ▸ h.scaleUp
    scaleDown := isFraction_orUnlessPositive (by decide +kernel) h.scaleDown
    health := isFraction_orUnlessPositive (by decide +kernel) h.health
    band := fun hle => hband (h.band_normalized.1 hle)
    bounds := h.bounds
    scaleDownFraction := h.scaleDownFraction }

/-- What is said about a configuration that has lost its band. -/
theorem validate_of_losesBand (h : c.IsValid) (hlost : c.LosesBand) :
    c.normalized.validate = .error c.bandObjection := by
  have hdown : c.normalized.scaleDownThreshold = standard.scaleDownThreshold := if_pos hlost.1
  have hhealth : isFraction c.normalized.healthThreshold = true :=
    isFraction_orUnlessPositive (by decide +kernel) h.health
  have hdefault : isFraction standard.scaleDownThreshold = true := by decide +kernel
  have hwrite : "scale_down_threshold " ++ Decimal.Layout.plain.write standard.scaleDownThreshold
      ++ " must be below scale_up_threshold "
      = "scale_down_threshold 0.2 must be below scale_up_threshold " := by decide +kernel
  rw [validate, h.maxSize_normalized, h.minSize_normalized, h.scaleUp_normalized, hdown,
    if_neg h.maxSize_ne_zero, if_neg (Nat.not_lt.2 h.minSize_le_maxSize),
    checkFraction_of_isFraction h.scaleUp, checkFraction_of_isFraction hdefault,
    checkFraction_of_isFraction hhealth, hwrite]
  show (if c.scaleUpThreshold ≤ standard.scaleDownThreshold then _ else _) = _
  rw [if_pos hlost.2]
  rfl

end IsValid
end PoolConfig

/-! ## Those who use a configuration -/

/-- The configuration that a command line asks for, as it stands. -/
def ConfigSource.chosen (source : ConfigSource) (files : Files) :
    Except CommandError PoolConfig := do
  let c ← source.load files
  match source.profile with
  | none => pure c
  | some name => ((LoadProfile.ofName name).mapError .config).map c.withProfile

/-- It is normalized before it is validated. -/
theorem ConfigSource.resolve_eq (source : ConfigSource) (files : Files) :
    source.resolve files = (do
      let c ← source.chosen files
      c.normalized.validate.mapError .config
      pure c.normalized) := by
  rw [resolve, chosen]
  cases source.load files with
  | error e => rfl
  | ok given => cases source.profile <;> rfl

theorem ConfigSource.resolve_of_chosen {source : ConfigSource} {files : Files} {c : PoolConfig}
    (h : source.chosen files = .ok c) :
    source.resolve files
      = (c.normalized.validate.mapError .config).map fun _ => c.normalized := by
  rw [resolve_eq, h]
  show (c.normalized.validate.mapError _ >>= fun _ => _) = _
  cases c.normalized.validate <;> rfl

namespace PoolConfig

theorem ofConfig_of_validate {c : PoolConfig} (h : c.normalized.validate = .ok ()) :
    ∃ p, Pool.ofConfig c = .ok p := by
  rw [Pool.ofConfig, h]
  exact ⟨_, rfl⟩

/-- **A valid configuration is accepted unless it loses its band.**  For those who open a pool with
it and for those who load it, this is the only reason to refuse it, and then there is this one
objection. -/
theorem accepted_of_valid (c : PoolConfig) (h : c.validate = .ok ()) :
    (¬ c.LosesBand → c.normalized.validate = .ok () ∧ (∃ p, Pool.ofConfig c = .ok p)
      ∧ ∀ (source : ConfigSource) files, source.chosen files = .ok c →
          source.resolve files = .ok c.normalized)
    ∧ (c.LosesBand → c.normalized.validate = .error c.bandObjection
      ∧ Pool.ofConfig c = .error (.config c.bandObjection)
      ∧ ∀ (source : ConfigSource) files, source.chosen files = .ok c →
          source.resolve files = .error (.config c.bandObjection)) := by
  have hvalid := validate_eq_ok.1 h
  constructor
  · intro hband
    have hok : c.normalized.validate = .ok () :=
      validate_eq_ok.2 (hvalid.normalized_iff.2 hband)
    refine ⟨hok, ofConfig_of_validate hok, fun source files hchosen => ?_⟩
    rw [ConfigSource.resolve_of_chosen hchosen, hok]
    rfl
  · intro hlost
    have herror := hvalid.validate_of_losesBand hlost
    refine ⟨herror, ?_, fun source files hchosen => ?_⟩
    · rw [Pool.ofConfig, herror]
      rfl
    · rw [ConfigSource.resolve_of_chosen hchosen, herror]
      rfl

/-- A pool that never shrinks, and grows early. -/
def eager : PoolConfig := { scaleUpThreshold := 0.15, scaleDownThreshold := 0.0 }

/-- Nobody takes it, although it is valid. -/
theorem accepted_of_valid_eager :
    eager.validate = .ok ()
    ∧ Pool.ofConfig eager = .error (.config (.invalid
        "scale_down_threshold 0.2 must be below scale_up_threshold 0.15")) := by
  have hvalid : eager.validate = .ok () := by decide +kernel
  have hlost : eager.LosesBand := by decide +kernel
  have hobjection : eager.bandObjection
      = .invalid "scale_down_threshold 0.2 must be below scale_up_threshold 0.15" := by
    decide +kernel
  exact ⟨hvalid, hobjection ▸ ((accepted_of_valid eager hvalid).2 hlost).2.1⟩

end PoolConfig
end ScriptPool
