import Mathlib.Order.Basic
import ScriptPool.Pool.Requests

/-!
# How many requests there were lately

The moments of requests stand in a queue, and every call drops the front of it as far as it is too
long ago.  What one call drops is gone for all the calls after it.  That does no harm as long as
time does not run backwards: what has left the window does not come back into it, and in a queue
that is in order a moment that still counts has nothing behind it that does not.

## What is here

* `RequestWindow.History` — calls of both kinds, and what has become of the queue after them.
* `InOrder` — no call is earlier than one before it.
* `Recalls` — the queue has, in order, exactly the requests of the window that ends at a moment.
  `Recalls.prune` and `Recalls.record` are the steps.
* `count_after` — **the count is that of the requests in the window**, whatever was dropped in
  between.
-/

set_option autoImplicit false

namespace ScriptPool
namespace RequestWindow

/-! ## Histories -/

/-- A call: a request is noted, or the requests are counted. -/
inductive Call where
  | record (now : Nat)
  | count (now : Nat)
  deriving Repr, DecidableEq

namespace Call

/-- When a call is made. -/
def moment : Call → Nat
  | record now => now
  | count now => now

/-- The moment of the request that is noted, if it is that kind of call. -/
def recorded? : Call → Option Nat
  | record now => some now
  | count _ => none

end Call

/-- Calls that were made, the latest first. -/
abbrev History := List Call

namespace History

/-- The moments of all requests that were noted, the latest first. -/
def recorded (calls : History) : List Nat := calls.filterMap Call.recorded?

/-- Time does not run backwards from one call to the next, and has not gone past `now`. -/
def InOrder (calls : History) (now : Nat) : Prop :=
  (now :: calls.map Call.moment).Pairwise (· ≥ ·)

instance (calls : History) (now : Nat) : Decidable (InOrder calls now) :=
  inferInstanceAs (Decidable (List.Pairwise _ _))

end History

/-- The window after some calls. -/
def after (r : RequestWindow) : History → RequestWindow
  | [] => r
  | .record now :: earlier => (r.after earlier).record now
  | .count now :: earlier => ((r.after earlier).count now).2

variable {window : Duration} {asked : List Nat} {calls : History} {c : Call} {r : RequestWindow}
  {now later : Nat}

theorem History.InOrder.tail (h : InOrder (c :: calls) now) : InOrder calls c.moment :=
  (List.pairwise_cons.1 h).2

theorem History.InOrder.le (h : InOrder (c :: calls) now) : c.moment ≤ now :=
  (List.pairwise_cons.1 h).1 _ List.mem_cons_self

/-! ## Dropping what is too long ago

Each call sees what the calls before it have left of the queue, and not all the requests there were.
That makes no difference, since whatever a call has dropped is too old for the later ones, too. -/

/-- If whatever is behind an element that stays would stay as well, then dropping from the front is
dropping everywhere. -/
theorem dropWhile_eq_filter {α : Type} {drop : α → Bool} {l : List α}
    (h : l.Pairwise fun a b => drop b = true → drop a = true) :
    l.dropWhile drop = l.filter fun a => !drop a := by
  induction l with
  | nil => rfl
  | cons a l ih =>
    obtain ⟨hfirst, hrest⟩ := List.pairwise_cons.1 h
    cases ha : drop a with
    | true => rw [List.dropWhile_cons_of_pos ha, ih hrest, List.filter_cons_of_neg (by simp [ha])]
    | false =>
      have hall : ∀ b ∈ l, (!drop b) = true := fun b hb => by
        rw [Bool.not_eq_true', ← Bool.not_eq_true]
        exact fun hdrop => Bool.false_ne_true (ha.symm.trans (hfirst b hb hdrop))
      rw [List.dropWhile_cons_of_neg (by simp [ha]), List.filter_cons_of_pos (by simp [ha]),
        List.filter_eq_self.2 hall]

/-- The queue has, in order, those of the requests that are in the window that ends now. -/
structure Recalls (window : Duration) (asked : List Nat) (now : Nat) (r : RequestWindow) : Prop where
  times : r.times = asked.reverse.filter fun t => now - t ≤ window.nanos
  window : r.window = window
  sorted : asked.Pairwise (· ≥ ·)

/-- **As time goes on, a request that has left the window does not come back into it.** -/
theorem Recalls.prune (h : Recalls window asked now r) (hle : now ≤ later) :
    Recalls window asked later (r.prune later) where
  window := h.window
  times := by
    have hsorted : (r.times).Pairwise fun t u => decide (r.window.nanos < later - u) = true →
        decide (r.window.nanos < later - t) = true := by
      have hasked : asked.reverse.Pairwise (· ≤ ·) := List.pairwise_reverse.2 h.sorted
      rw [h.times]
      refine (hasked.filter _).imp fun {t u} htu => ?_
      simp only [decide_eq_true_eq]
      omega
    show r.times.dropWhile (fun t => decide (r.window.nanos < later - t)) = _
    rw [dropWhile_eq_filter hsorted, h.times, List.filter_filter, h.window]
    refine List.filter_congr fun t _ => ?_
    rw [Bool.eq_iff_iff]
    simp only [Bool.and_eq_true, Bool.not_eq_true', decide_eq_true_eq, decide_eq_false_iff_not]
    omega
  sorted := h.sorted

/-- A request that is noted is in the window, and the last one in it. -/
theorem Recalls.record (h : Recalls window asked now r) (hle : ∀ t ∈ asked, t ≤ now) :
    Recalls window (now :: asked) now { r with times := r.times ++ [now] } where
  window := h.window
  times := by
    show r.times ++ [now] = _
    rw [h.times, List.reverse_cons, List.filter_append]
    simp
  sorted := List.pairwise_cons.2 ⟨hle, h.sorted⟩

/-- No request is later than the last call. -/
theorem History.InOrder.recorded_le (h : InOrder calls now) : ∀ t ∈ calls.recorded, t ≤ now := by
  intro t ht
  obtain ⟨c, hc, hrecorded⟩ := List.mem_filterMap.1 ht
  have hmoment : c.moment = t := by
    cases c with
    | record _ => exact Option.some.inj hrecorded
    | count _ => cases hrecorded
  exact hmoment ▸ (List.pairwise_cons.1 h).1 _ (List.mem_map_of_mem hc)

/-- **After calls in order,** what is in the queue once it was looked at is what is in the window.
-/
theorem recalls_after (window : Duration) (calls : History) : ∀ {now : Nat}, calls.InOrder now →
    Recalls window calls.recorded now ((({ window } : RequestWindow).after calls).prune now) := by
  induction calls with
  | nil => exact fun _ => ⟨rfl, rfl, List.Pairwise.nil⟩
  | cons c earlier ih =>
    intro now h
    have hearlier := ih h.tail
    cases c with
    | record t => exact (hearlier.record h.tail.recorded_le).prune h.le
    | count t => exact hearlier.prune h.le

/-- **The count is the number of requests in the window** that ends now; one that is exactly as old
as the window is long still counts. -/
theorem count_after (window : Duration) (calls : History) (h : calls.InOrder now) :
    ((({ window } : RequestWindow).after calls).count now).1
      = calls.recorded.countP fun t => now - t ≤ window.nanos := by
  have htimes := (recalls_after window calls h).times
  show ((({ window } : RequestWindow).after calls).prune now).times.length = _
  rw [htimes, ← List.countP_eq_length_filter, List.countP_reverse]

end RequestWindow
end ScriptPool
