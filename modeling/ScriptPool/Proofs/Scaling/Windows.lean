import Mathlib.Data.List.DropRight
import Mathlib.Data.List.Induction
import ScriptPool.Proofs.Scaling.Ticks

/-!
# The window of a scaler is the recent past

The prediction, the surge and the thresholds are all read off places in the window, so they are
right only if the window has the right samples at these places.  A sample goes in at the end, and
the oldest one is dropped before that if there is no room; looks at a pool without interpreters
leave no sample.  So after any number of looks the window has the latest samples in order, as many
as it has room for.

Nothing depends on whether the scaler could go on after a look: the sample is taken before the
thresholds are adjusted.

## What is here

* `UsageWindow.Recalls` — a window holds the latest of some samples; `Recalls.push` is the step.
* `Scaler.Event` — what happens to a scaler, and `Scaler.after`, what becomes of it.
* `window_of_events` — **what the window of a scaler holds** after any sequence of events.
-/

set_option autoImplicit false

namespace ScriptPool
namespace UsageWindow

/-- A window for so many samples, but at least one, holds the latest of some samples. -/
structure Recalls (capacity : Nat) (samples : List UsageSample) (w : UsageWindow) : Prop where
  room : w.capacity = max capacity 1
  latest : w.samples = samples.rtake (max capacity 1)

variable {capacity : Nat} {samples : List UsageSample} {w : UsageWindow}

theorem recalls_ofCapacity (capacity : Nat) : Recalls capacity [] (ofCapacity capacity) :=
  ⟨rfl, (List.rtake_nil _).symm⟩

theorem length_rtake {α : Type} (l : List α) (n : Nat) : (l.rtake n).length = min l.length n := by
  rw [List.rtake, List.length_drop]
  omega

theorem Recalls.isFull_iff (h : Recalls capacity samples w) :
    w.isFull = true ↔ max capacity 1 ≤ samples.length := by
  rw [isFull, beq_iff_eq, length, h.room, h.latest, length_rtake]
  omega

/-- The latest elements, one fewer of them. -/
theorem drop_one_rtake {α : Type} {l : List α} {n : Nat} (h : n + 1 ≤ l.length) :
    (l.rtake (n + 1)).drop 1 = l.rtake n := by
  rw [List.rtake, List.rtake, List.drop_drop]
  congr 1
  omega

/-- All of them, if there are not more. -/
theorem rtake_of_length_le {α : Type} {l : List α} {n : Nat} (h : l.length ≤ n) :
    l.rtake n = l := by
  rw [List.rtake, Nat.sub_eq_zero_of_le h, List.drop_zero]

/-- **A sample that is added is the latest,** and the window still holds the latest ones. -/
theorem Recalls.push (h : Recalls capacity samples w) (s : UsageSample) :
    Recalls capacity (samples ++ [s]) (w.push s) where
  room := h.room
  latest := by
    obtain ⟨n, hn⟩ : ∃ n, max capacity 1 = n + 1 := ⟨max capacity 1 - 1, by omega⟩
    have hroom : (if w.isFull then w.samples.drop 1 else w.samples) = samples.rtake n := by
      rw [h.latest, hn]
      by_cases hfull : w.isFull = true
      · rw [if_pos hfull]
        exact drop_one_rtake (hn ▸ h.isFull_iff.1 hfull)
      · have hlen : samples.length ≤ n := by
          have hnot := mt h.isFull_iff.2 hfull
          omega
        rw [if_neg hfull, rtake_of_length_le hlen, rtake_of_length_le (Nat.le_succ_of_le hlen)]
    show (if w.isFull then w.samples.drop 1 else w.samples) ++ [s] = _
    rw [hroom, hn, List.rtake_concat_succ]

end UsageWindow

namespace Scaler

/-! ## What happens to a scaler -/

/-- Something that happens to a scaler. -/
inductive Event where
  /-- It looks at a pool. -/
  | look (s : PoolSnapshot)
  /-- It is told how many interpreters were scheduled on its behalf. -/
  | grown (scheduled : Nat)
  /-- It is told how many interpreters were removed on its behalf. -/
  | shrunk (removed : Nat)

/-- The scaler after an event, whether or not it can go on. -/
def next (k : Scaler) : Event → Scaler
  | .look s => (k.tick s).2
  | .grown scheduled => k.noteScaleUp scheduled
  | .shrunk removed => k.noteScaleDown removed

/-- The scaler after some events, the earliest first. -/
def after (k : Scaler) (events : List Event) : Scaler := events.foldl next k

/-- The sample that an event leaves: that of a look at a pool that is not empty. -/
def Event.sample? : Event → Option UsageSample
  | .look s => if s.size = 0 then none else some s.sample
  | _ => none

variable {k : Scaler} {s : PoolSnapshot}

/-- **A look at an empty pool changes nothing.** -/
theorem tick_of_empty (k : Scaler) (h : s.size = 0) : k.tick s = (some .keep, k) := by
  rw [tick, if_pos h]

theorem window_adopt (k : Scaler) (t : Thresholds) : (k.adopt t).window = k.window := by
  rw [adopt]
  split <;> rfl

theorem ticks_adopt (k : Scaler) (t : Thresholds) : (k.adopt t).stats.ticks = k.stats.ticks := by
  rw [adopt]
  split <;> rfl

/-- **A look at any other pool** adds its sample to the window and is counted, also if the scaler
cannot go on after it. -/
theorem tick_of_nonempty (k : Scaler) (h : s.size ≠ 0) :
    (k.tick s).2.window = k.window.push s.sample
      ∧ (k.tick s).2.stats.ticks = k.stats.ticks + 1 := by
  rw [tick, if_neg h]
  cases hadaptive : k.settings.adaptive with
  | false => simp [hadaptive]
  | true =>
    simp only [hadaptive, Bool.not_true, Bool.false_eq_true, if_false]
    cases k.thresholds.adjusted? (k.window.push s.sample) k.settings.tunables with
    | none => exact ⟨rfl, rfl⟩
    | some t => exact ⟨window_adopt _ t, ticks_adopt _ t⟩

/-- What is known of a scaler by the samples that it has taken. -/
structure Remembers (capacity : Nat) (samples : List UsageSample) (k : Scaler) : Prop where
  recalls : k.window.Recalls capacity samples
  ticks : k.stats.ticks = samples.length

/-- **Every event keeps it,** with one sample more or with the same. -/
theorem Remembers.next {capacity : Nat} {samples : List UsageSample}
    (h : Remembers capacity samples k) (e : Event) :
    Remembers capacity (samples ++ e.sample?.toList) (k.next e) := by
  cases e with
  | look s =>
    by_cases hempty : s.size = 0
    · rw [Scaler.next, tick_of_empty k hempty, Event.sample?, if_pos hempty]
      simpa using h
    · obtain ⟨hwindow, hticks⟩ := tick_of_nonempty k hempty
      rw [Event.sample?, if_neg hempty]
      exact {
        recalls := by
          rw [Scaler.next, hwindow]
          exact h.recalls.push s.sample
        ticks := by
          rw [Scaler.next, hticks, h.ticks]
          simp }
  | grown scheduled => exact (List.append_nil samples).symm ▸ ⟨h.recalls, h.ticks⟩
  | shrunk removed => exact (List.append_nil samples).symm ▸ ⟨h.recalls, h.ticks⟩

theorem remembers_after (settings : ScalerSettings) (events : List Event) :
    Remembers settings.windowSize (events.filterMap Event.sample?) ((new settings).after events) := by
  induction events using List.reverseRecOn with
  | nil => exact ⟨UsageWindow.recalls_ofCapacity _, rfl⟩
  | append_singleton events e ih =>
    have hsamples : (events ++ [e]).filterMap Event.sample?
        = events.filterMap Event.sample? ++ e.sample?.toList := by
      rw [List.filterMap_append]
      cases he : e.sample? <;> simp [he]
    have hafter : (new settings).after (events ++ [e]) = ((new settings).after events).next e := by
      rw [after, List.foldl_concat]
      rfl
    rw [hsamples, hafter]
    exact ih.next e

/-- **What the window of a scaler holds,** whatever has happened to the scaler.

* Of the samples of all looks at pools that were not empty it has the latest, in order: as many as
  there were, or as there is room for.  There is always room for one.
* It is full as soon as there were so many samples.
* Every such look was counted.
* A look at an empty pool changes nothing at all, and nothing is to be done then. -/
theorem window_of_events (settings : ScalerSettings) (events : List Event) :
    let capacity := max settings.windowSize 1
    let samples := events.filterMap Event.sample?
    let k := (new settings).after events
    k.window.samples = samples.rtake (min samples.length capacity)
    ∧ k.window.samples.length = min samples.length capacity
    ∧ (k.window.isFull = true ↔ capacity ≤ samples.length)
    ∧ k.stats.ticks = samples.length
    ∧ ∀ s : PoolSnapshot, s.size = 0 → k.tick s = (some .keep, k) := by
  intro capacity samples k
  obtain ⟨hrecalls, hticks⟩ := remembers_after settings events
  have hlatest : samples.rtake (min samples.length capacity) = samples.rtake capacity := by
    rw [List.rtake, List.rtake]
    congr 1
    omega
  have hsamples : k.window.samples = samples.rtake capacity := hrecalls.latest
  refine ⟨hsamples.trans hlatest.symm, ?_, hrecalls.isFull_iff, hticks, fun s => tick_of_empty k⟩
  rw [hsamples, UsageWindow.length_rtake]

/-- A pool with four interpreters, so many of them on loan. -/
def fourWith (inUse : Nat) : PoolSnapshot :=
  { inUse, available := 4 - inUse, minSize := 0, maxSize := 4, requestRate := 0.0 }

/-- A pool without interpreters. -/
def deserted : PoolSnapshot :=
  { inUse := 0, available := 0, minSize := 0, maxSize := 4, requestRate := 0.0 }

/-- A scaler with room for two samples. -/
def forgetful : ScalerSettings :=
  { interval := .ofSecs 30, windowSize := 2, thresholds := ⟨0.8, 0.3⟩, maxPredictedScaleUp := 5,
    adaptive := false, tunables := {} }

/-- Three samples are taken of five looks, and the first of them is forgotten. -/
theorem window_of_events_forgetful :
    let k := (new forgetful).after
      [.look (fourWith 1), .look deserted, .look (fourWith 2), .grown 1, .look (fourWith 3),
        .look deserted]
    k.window.samples = [(fourWith 2).sample, (fourWith 3).sample] ∧ k.window.isFull = true
    ∧ k.stats.ticks = 3 ∧ k.tick deserted = (some .keep, k) := by
  intro k
  obtain ⟨hsamples, -, hfull, hticks, hempty⟩ := window_of_events forgetful
    [.look (fourWith 1), .look deserted, .look (fourWith 2), .grown 1, .look (fourWith 3),
      .look deserted]
  exact ⟨hsamples, hfull.2 (by decide), hticks, hempty deserted rfl⟩

end Scaler
end ScriptPool
