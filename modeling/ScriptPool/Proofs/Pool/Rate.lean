import ScriptPool.Proofs.Pool.MinSize
import ScriptPool.Proofs.Pool.Requests

/-!
# The rate of requests that a scaler sees

A pool notes the moment of every request when it begins, whatever becomes of it, and a look of the
scaler counts the moments that are recent.  No other move touches them.  So what a look shows is a
matter of the requests and the looks before it alone, and the moves in between do not enter into it.

## What is here

* `Move.call?` — the call that a move makes to the window of requests; `Run.recent` — the window of
  a pool is the one after these calls.
* `requestRate_of_run` — **the rate is the number of requests in the trailing window**, for the
  window by itself and for what a scaler sees of a pool.
-/

set_option autoImplicit false

namespace ScriptPool
namespace Pool

open Transition

variable {config : PoolConfig} {opened : List Interpreter} {ms : List Move} {p q : Pool}

/-! ## Calls -/

/-- The call that a move makes to the window of requests: a request is noted when it begins, and a
look of the scaler counts. -/
def Move.call? : Move → Option RequestWindow.Call
  | .request _ now => some (.record now)
  | .look now => some (.count now)
  | _ => none

/-- When a request begins, if that is the move. -/
def Move.requestedAt? : Move → Option Nat
  | .request _ now => some now
  | _ => none

/-- The requests that are noted are those that begin. -/
theorem recorded_calls (ms : List Move) :
    RequestWindow.History.recorded (ms.filterMap Move.call?) = ms.filterMap Move.requestedAt? := by
  rw [RequestWindow.History.recorded, List.filterMap_filterMap]
  refine List.filterMap_congr fun m _ => ?_
  cases m <;> rfl

/-- **A move makes its call to the window,** and leaves the window alone if it makes none. -/
theorem Move.recent (p : Pool) (m : Move) :
    Ensures (m.apply p) fun q => q.recent = p.recent.after m.call?.toList := by
  refine (Move.standing p m).mono fun q hq => ?_
  have hrecent : q.recent = (m.next p.standing).recent := congrArg Standing.recent hq
  rw [hrecent]
  cases m <;> rfl

/-- While a pool is being opened, nobody asks for anything. -/
theorem Opening.recent (h : Opening config opened p) :
    p.recent = { window := config.normalized.tunables.requestWindow } :=
  congrArg Standing.recent h.standing

/-- **The window of a pool** is what the requests and the looks so far make of an empty one. -/
theorem Run.recent (h : Run config opened ms p) :
    p.recent = ({ window := config.normalized.tunables.requestWindow } : RequestWindow).after
      (ms.filterMap Move.call?) := by
  induction h with
  | start h => exact h.1.recent
  | @step ms p p' m _ s ih =>
    obtain ⟨-, w, w', hrun⟩ := s
    rw [(Move.recent p m).of_run hrun, ih, List.filterMap_cons]
    cases m <;> rfl

/-- **The rate is the number of requests in the trailing window.**

* Whatever calls were made before, of either kind and at any moments that do not run backwards, the
  count is that of the requests noted whose age is not more than the length of the window.
* So what a scaler sees of an open pool is the number of requests that have begun in the trailing
  window, whatever else has happened to the pool in between. -/
theorem requestRate_of_run :
    (∀ (window : Duration) (calls : RequestWindow.History) (now : Nat), calls.InOrder now →
      ((({ window } : RequestWindow).after calls).count now).1
        = calls.recorded.countP fun t => now - t ≤ window.nanos)
    ∧ ∀ (config : PoolConfig) (opened : List Interpreter) (ms : List Move) (p : Pool),
      Run config opened ms p → p.closed = false → ∀ (now : Nat) (w : World),
      RequestWindow.History.InOrder (ms.filterMap Move.call?) now →
      ∃ s q, (scaleTarget now).snapshot (p, w) = (some s, q, w)
        ∧ s.requestRate = Float.ofNat ((ms.filterMap Move.requestedAt?).countP
          fun t => now - t ≤ p.config.tunables.requestWindow.nanos) := by
  refine ⟨fun window calls now => RequestWindow.count_after window calls,
    fun config opened ms p h hopen now w horder => ?_⟩
  have hsnapshot : (scaleTarget now).snapshot (p, w)
      = (some (p.snapshot now).1, (p.snapshot now).2, w) := by
    simp only [scaleTarget, hopen, Bool.false_eq_true, if_false]
  have hcount := RequestWindow.count_after config.normalized.tunables.requestWindow _ horder
  rw [← h.recent, recorded_calls, ← h.config] at hcount
  exact ⟨_, _, hsnapshot, congrArg Float.ofNat hcount⟩

/-- So many seconds, in nanoseconds. -/
def seconds (n : Nat) : Nat := n * 10 ^ 9

/-- Two requests are a second apart.  A minute after the second one it still counts, for a window of
a minute, and the first one does not. -/
theorem requestRate_of_run_minute :
    ((({ window := .ofSecs 60 } : RequestWindow).after
      [.record (seconds 1), .count (seconds 1), .record 0]).count (seconds 61)).1 = 1
    ∧ ∃ p, Run pair [firstMade] [.request 8 (seconds 1), .look (seconds 1), .request 7 0] p
      ∧ p.closed = false
      ∧ ∀ w, ∃ s q, (scaleTarget (seconds 61)).snapshot (p, w) = (some s, q, w)
        ∧ s.requestRate = Float.ofNat 1 := by
  have hopening : Opening pair [firstMade] _ :=
    @Opening.more pair [] _ _ _ firstMade 0 default _ (.empty rfl) Nat.zero_lt_one rfl rfl rfl
  have h₀ : Run pair [firstMade] [] _ := .start ⟨hopening, Nat.le_refl _⟩
  have h₁ := h₀.step (m := .request 7 0) ⟨List.not_mem_nil, default, _, rfl⟩
  have h₂ := h₁.step (m := .look (seconds 1)) ⟨trivial, default, _, rfl⟩
  have h₃ := h₂.step (m := .request 8 (seconds 1)) ⟨List.not_mem_nil, default, _, rfl⟩
  obtain ⟨hcount, hrate⟩ := requestRate_of_run
  exact ⟨hcount (.ofSecs 60) _ (seconds 61) (by decide), _, h₃, rfl,
    fun w => hrate _ _ _ _ h₃ rfl (seconds 61) w (by decide)⟩

end Pool
end ScriptPool
