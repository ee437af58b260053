import ScriptPool.Proofs.Pool.Moves

/-!
# What taking interpreters leaves alone

Whoever takes an interpreter out of the queue, be it to lend it or to discard it, needs a permit for
it, and has taken that before.  So nobody who waits for anything is affected.

## What is here

* `Keeps` — everybody who waits, everything that is in the making and the number of permits is as
  before.
* `keeps_checkOutAny` — looking for an interpreter uses up permits, and all of them if none is
  found.
* `takePermit?_eq_some`, `reserve?_eq_some` — what it means that there is a permit, or a slot.
-/

set_option autoImplicit false

namespace ScriptPool
namespace Pool

open Transition

/-- Nobody's place in line, no grant and no creation is affected, and no permit is made or taken. -/
structure Keeps (p q : Pool) : Prop where
  config : q.config = p.config
  permits : q.permits = p.permits
  waiters : q.waiters = p.waiters
  granted : q.granted = p.granted
  planned : q.planned = p.planned
  creations : q.creations = p.creations
  closed : q.closed = p.closed
  drained : q.drained = p.drained

namespace Keeps

theorem refl (p : Pool) : Keeps p p := ⟨rfl, rfl, rfl, rfl, rfl, rfl, rfl, rfl⟩

theorem trans {p q r : Pool} (h : Keeps p q) (h' : Keeps q r) : Keeps p r :=
  ⟨h'.config.trans h.config, h'.permits.trans h.permits, h'.waiters.trans h.waiters,
    h'.granted.trans h.granted, h'.planned.trans h.planned, h'.creations.trans h.creations,
    h'.closed.trans h.closed, h'.drained.trans h.drained⟩

theorem keys {p q : Pool} (h : Keeps p q) : q.keys = p.keys := by
  rw [Pool.keys, h.waiters, h.granted, h.creations, Pool.keys]

end Keeps

theorem keeps_discard (p : Pool) (i : Interpreter) : Ensures (p.discard i) fun q => Keeps p q :=
  (ensures_true _).bind fun _ _ =>
    ensures_pure ⟨rfl, rfl, rfl, rfl, rfl, rfl, rfl, rfl⟩

theorem keeps_discardAll (l : List Interpreter) :
    ∀ p : Pool, Ensures (p.discardAll l) fun q => Keeps p q := by
  induction l with
  | nil => exact fun p => ensures_pure (Keeps.refl p)
  | cons i l ih =>
    exact fun p => (keeps_discard p i).bind fun q hq => (ih q).mono fun _ hr => hq.trans hr

theorem keeps_takeIdle? {p q : Pool} {i : Interpreter} (h : p.takeIdle? = some (i, q)) :
    Keeps p q := by
  rw [takeIdle?] at h
  split at h
  · cases h
  · obtain ⟨rfl, rfl⟩ := Prod.mk.inj (Option.some.inj h)
    exact ⟨rfl, rfl, rfl, rfl, rfl, rfl, rfl, rfl⟩

theorem keeps_checkOut (p : Pool) : Ensures p.checkOut fun r => Keeps p r.2 := by
  rw [checkOut]
  split
  · exact ensures_pure (Keeps.refl p)
  · rename_i i q hq
    have hk := keeps_takeIdle? hq
    split
    · exact (keeps_discard q i).bind fun r hr => ensures_pure (hk.trans hr)
    · exact ensures_pure hk

theorem takePermit?_eq_some {p q : Pool} (h : p.takePermit? = some q) :
    ∃ n, p.permits = n + 1 ∧ q = { p with permits := n } := by
  rw [takePermit?] at h
  split at h
  · cases h
  · split at h
    · rename_i n hn
      exact ⟨n, hn, (Option.some.inj h).symm⟩
    · cases h

/-- Permits are used up one after the other, and all of them if no interpreter is found. -/
theorem keeps_checkOutAny (n : Nat) : ∀ p : Pool, p.permits ≤ n → p.drained = false →
    Ensures (checkOutAny n p) fun r =>
      ∃ left, Keeps { p with permits := left } r.2 ∧ (r.1 = none → left = 0) := by
  induction n with
  | zero =>
    intro p hn _
    exact ensures_pure ⟨p.permits, Keeps.refl p, fun _ => Nat.le_zero.1 hn⟩
  | succ n ih =>
    intro p hn hd
    rw [checkOutAny]
    split
    · rename_i hnone
      refine ensures_pure ⟨p.permits, Keeps.refl p, fun _ => ?_⟩
      rw [takePermit?, hd] at hnone
      cases hp : p.permits with
      | zero => rfl
      | succ k => rw [hp] at hnone; cases hnone
    · rename_i q hq
      obtain ⟨k, hk, rfl⟩ := takePermit?_eq_some hq
      refine (keeps_checkOut _).bind fun r hr => ?_
      rcases r with ⟨_ | i, r⟩
      · have hle : r.permits ≤ n := by
          have hp := hr.permits
          show r.permits ≤ n
          rw [hp]
          show k ≤ n
          omega
        refine (ih r hle (hr.drained.trans hd)).mono fun s hs => ?_
        obtain ⟨left, hs, hleft⟩ := hs
        refine ⟨left, ⟨hs.config.trans hr.config, hs.permits, hs.waiters.trans hr.waiters,
          hs.granted.trans hr.granted, hs.planned.trans hr.planned,
          hs.creations.trans hr.creations, hs.closed.trans hr.closed,
          hs.drained.trans hr.drained⟩, hleft⟩
      · exact ensures_pure ⟨k, hr, fun h => absurd h (Option.some_ne_none i)⟩

theorem reserve?_eq_some {p q : Pool} (h : p.reserve? = some q) :
    p.total < p.config.maxSize ∧ q = { p with total := p.total + 1 } := by
  rw [reserve?] at h
  split at h
  · rename_i hlt
    exact ⟨hlt, (Option.some.inj h).symm⟩
  · cases h

theorem reserve?_eq_none {p : Pool} (h : p.reserve? = none) : p.config.maxSize ≤ p.total := by
  rw [reserve?] at h
  split at h
  · cases h
  · rename_i hle
    exact Nat.not_lt.1 hle

end Pool
end ScriptPool
