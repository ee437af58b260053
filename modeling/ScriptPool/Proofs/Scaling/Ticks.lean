import Mathlib.Data.List.Induction
import ScriptPool.Scaling.Scaler

/-!
# Runs of a scaler

A look at a pool is a decision and a step of the scaler.  This file takes the two apart, so that
nobody has to look into `tick` any more: the decision is `Scaler.decision`, and what the step does
to the scaler is `Looked`.  A run is a sequence of looks; it ends early where the scaler cannot go
on.

## What is here

* `tick_fst` and `Looked.of_next?` — the decision and the step.
* `run?_keeps` — what every look keeps, a run keeps.
* `run?_new` — after a run the settings are the same, the window is that of the snapshots seen, and
  the thresholds in force are the ones that are published.
-/

set_option autoImplicit false

namespace ScriptPool

/-- The window after a look at a pool.  A pool without interpreters leaves no sample. -/
def UsageWindow.after (w : UsageWindow) (s : PoolSnapshot) : UsageWindow :=
  if s.size = 0 then w else w.push s.sample

/-- The window of a scaler that has looked at some pools. -/
def ScalerSettings.windowAfter (settings : ScalerSettings) (seen : List PoolSnapshot) :
    UsageWindow :=
  seen.foldl UsageWindow.after (.ofCapacity settings.windowSize)

theorem ScalerSettings.windowAfter_concat (settings : ScalerSettings) (seen : List PoolSnapshot)
    (s : PoolSnapshot) :
    settings.windowAfter (seen ++ [s]) = (settings.windowAfter seen).after s := by
  simp [windowAfter]

namespace Scaler

/-! ## One look -/

/-- What a scaler decides to do about a pool. -/
def decision (k : Scaler) (s : PoolSnapshot) : ScaleDecision :=
  if s.size = 0 then .keep
  else k.decide s s.sample.usage ((k.window.push s.sample).prediction k.settings.tunables)

/-- The thresholds that a look leads to, if the scaler can go on. -/
def ahead? (k : Scaler) (s : PoolSnapshot) : Option Thresholds :=
  if s.size ≠ 0 ∧ k.settings.adaptive = true then
    k.thresholds.adjusted? (k.window.push s.sample) k.settings.tunables
  else some k.thresholds

/-- The scaler after a look, if it can go on. -/
def next? (k : Scaler) (s : PoolSnapshot) : Option Scaler := (k.tick s).1.map fun _ => (k.tick s).2

/-- What a look does to a scaler that can go on. -/
structure Looked (k : Scaler) (s : PoolSnapshot) (k' : Scaler) : Prop where
  settings : k'.settings = k.settings
  window : k'.window = k.window.after s
  /-- What compares as equal is not taken over. -/
  thresholds : ∃ t, k.ahead? s = some t
    ∧ k'.thresholds = if t.agree k.thresholds then k.thresholds else t
  published : k.stats.thresholds = k.thresholds → k'.stats.thresholds = k'.thresholds

variable {k k' : Scaler} {s : PoolSnapshot}

/-- **There is a decision exactly if the scaler can go on.** -/
theorem tick_fst (k : Scaler) (s : PoolSnapshot) :
    (k.tick s).1 = (k.ahead? s).map fun _ => k.decision s := by
  rw [tick, ahead?, decision]
  by_cases hempty : s.size = 0
  · simp [hempty]
  · cases hadaptive : k.settings.adaptive with
    | false => simp [hempty, hadaptive]
    | true =>
      simp only [hempty, hadaptive, ne_eq, not_false_eq_true, and_self, if_true, if_false]
      cases k.thresholds.adjusted? (k.window.push s.sample) k.settings.tunables <;> rfl

theorem next?_eq_none : k.next? s = none ↔ k.ahead? s = none := by
  rw [next?, tick_fst, Option.map_eq_none_iff, Option.map_eq_none_iff]

/-- **What a look does.** -/
theorem Looked.of_next? (h : k.next? s = some k') : Looked k s k' := by
  obtain ⟨d, hd, rfl⟩ := Option.map_eq_some_iff.1 h
  rw [tick] at hd ⊢
  by_cases hempty : s.size = 0
  · rw [if_pos hempty] at hd ⊢
    have hahead : k.ahead? s = some k.thresholds := if_neg fun hlook => hlook.1 hempty
    exact ⟨rfl, (if_pos hempty).symm, ⟨_, hahead, (ite_self _).symm⟩, id⟩
  · rw [if_neg hempty] at hd ⊢
    have hwindow : k.window.after s = k.window.push s.sample := if_neg hempty
    cases hadaptive : k.settings.adaptive with
    | false =>
      simp only [hadaptive, Bool.not_false, if_true]
      have hahead : k.ahead? s = some k.thresholds := by simp [ahead?, hadaptive]
      exact ⟨rfl, hwindow.symm, ⟨_, hahead, (ite_self _).symm⟩, id⟩
    | true =>
      simp only [hadaptive, Bool.not_true, Bool.false_eq_true, if_false] at hd ⊢
      cases hadjusted : k.thresholds.adjusted? (k.window.push s.sample) k.settings.tunables with
      | none =>
        rw [hadjusted] at hd
        cases hd
      | some t =>
        have hahead : k.ahead? s = some t := (if_pos ⟨hempty, hadaptive⟩).trans hadjusted
        dsimp only [adopt]
        split
        case isTrue hagree => exact ⟨rfl, hwindow.symm, ⟨t, hahead, (if_pos hagree).symm⟩, id⟩
        case isFalse hagree =>
          exact ⟨rfl, hwindow.symm, ⟨t, hahead, (if_neg hagree).symm⟩, fun _ => rfl⟩

/-! ## Runs

The induction over looks is done once, for whatever a look keeps.  What is proved of scalers
elsewhere is proved of one look. -/

/-- Looks at pools one after the other, as long as the scaler can go on. -/
def run? (k : Scaler) (seen : List PoolSnapshot) : Option Scaler := seen.foldlM next? k

theorem run?_append (k : Scaler) (seen later : List PoolSnapshot) :
    k.run? (seen ++ later) = (k.run? seen).bind fun k => k.run? later :=
  List.foldlM_append

theorem run?_concat (k : Scaler) (seen : List PoolSnapshot) (s : PoolSnapshot) :
    k.run? (seen ++ [s]) = (k.run? seen).bind fun k => k.next? s := by
  simp [run?]

/-- **What every look keeps, a run keeps.** -/
theorem run?_keeps {P : Scaler → Prop} (hstep : ∀ {k s k'}, k.next? s = some k' → P k → P k')
    {seen : List PoolSnapshot} : ∀ {k k' : Scaler}, k.run? seen = some k' → P k → P k' := by
  induction seen with
  | nil =>
    intro k k' h hk
    cases h
    exact hk
  | cons s seen ih =>
    intro k k' h hk
    obtain ⟨j, hj, hrest⟩ := Option.bind_eq_some_iff.1 h
    exact ih hrest (hstep hj hk)

/-- What is known of a scaler by what it has seen. -/
structure HasSeen (asked : ScalerSettings) (seen : List PoolSnapshot) (k : Scaler) : Prop where
  settings : k.settings = asked
  window : k.window = asked.windowAfter seen
  published : k.stats.thresholds = k.thresholds

/-- **What is known of a scaler after a run.** -/
theorem run?_new {settings : ScalerSettings} {seen : List PoolSnapshot}
    (h : (new settings).run? seen = some k) : HasSeen settings seen k := by
  induction seen using List.reverseRecOn generalizing k with
  | nil =>
    cases h
    exact ⟨rfl, rfl, rfl⟩
  | append_singleton seen s ih =>
    rw [run?_concat] at h
    obtain ⟨j, hj, hlook⟩ := Option.bind_eq_some_iff.1 h
    have hlooked := Looked.of_next? hlook
    have hseen := ih hj
    exact {
      settings := hlooked.settings.trans hseen.settings
      window := by rw [hlooked.window, hseen.window, ScalerSettings.windowAfter_concat]
      published := hlooked.published hseen.published }

end Scaler
end ScriptPool
