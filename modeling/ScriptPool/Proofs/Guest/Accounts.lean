import ScriptPool.Proofs.Guest.Calls

/-!
# The account of a guest state

Conversions execute nothing, and whatever is called executes its instructions in the state that it
belongs to, where they are charged for.  So however scripts, functions and conversions are nested in
each other, the account of every guest state is as it should be afterwards.  Codecs could tamper
with it, so of them it has to be asked that they do not.

## What is here

* `Codec.IsMetered` — codecs that do no more to an account than execute instructions; the stock
  codecs execute none.
* `World.Accounts` — a guest state was charged for what was executed in it.
* `World.serves_accounts` — **conversions and calls keep accounts.**
* `World.Uncharged`, `Execution.keeps_resume_uncharged` — nothing was charged to a guest state, and
  **nothing ever is for what coroutines execute.**
-/

set_option autoImplicit false

namespace ScriptPool

/-! ## On the side

A coroutine has a thread of its own, where there is no hook; a finalizer is run on the thread that
is there, where the hook goes on to count, but cannot charge.  Both take their time all the same, so
the account has to say what was executed without a charge. -/

namespace Hook

/-- Nothing is charged on the side. -/
theorem aside_ne_charging (hook : Hook) (kind : Aside) : hook.aside kind ≠ .charging := by
  cases hook <;> cases kind <;> decide

theorem aside_coroutine (hook : Hook) : hook.aside .coroutine = .absent := by
  cases hook <;> rfl

end Hook

namespace GuestState

variable {g g' : GuestState}

/-- What is done on the side is charged to nobody, and the hook is back afterwards. -/
theorem Metered.of_stepAside {kind : Aside} {moments : List Nat}
    (h : (g.stepAside kind).Metered g' moments) : g.Metered (g'.setHook g.hook) moments where
  budget := h.budget
  spaced := h.spaced
  last := h.last
  clock := h.clock
  uncharged := h.uncharged
  hook := rfl
  quiet _ := h.quiet (Hook.aside_ne_charging _ _)
  absent habsent := h.absent (congrArg (Hook.aside · kind) habsent)
  pending := h.pending

/-! ## Conversions -/

/-- What a conversion adds to a heap costs nothing. -/
theorem Growth.metered (h : g.Growth g') : g.Metered g' [] := by
  cases h with
  | marker =>
    rw [arrayMarkerTable]
    split
    · exact .refl g
    · exact .of_same rfl rfl rfl rfl rfl
  | _ => exact .of_same rfl rfl rfl rfl rfl

theorem Grows.metered (h : g.Grows g') : g.Metered g' [] := by
  induction h with
  | refl => exact .refl g
  | tail _ hgrowth ih => exact ih.trans hgrowth.metered

end GuestState

namespace Codec

/-- Encoding a custom value does nothing to an account but execute instructions. -/
def IsMetered (codec : Codec) : Prop :=
  ∀ (custom : Custom) (g : GuestState), ∃ moments, g.Metered (codec.encode custom g).2 moments

/-- Codecs that only add to the heap execute nothing. -/
theorem Grows.isMetered {codec : Codec} (h : codec.Grows) : codec.IsMetered :=
  fun custom g => ⟨[], (h custom g).metered⟩

end Codec

/-! ## Worlds

All states keep their own account, as a call may lead from one state to another and back. -/

namespace World

/-- Whatever was done, a guest state was charged for what was executed in it. -/
structure Accounts (s : Nat) (w w' : World) : Prop where
  codecs : w'.codecs = w.codecs
  size : w'.states.size = w.states.size
  metered : (∀ codec ∈ w.codecs, codec.IsMetered) →
    ∃ moments, (w.state s).Metered (w'.state s) moments

variable {w w' : World} {s s' : Nat}

instance (s : Nat) : IsPreorder World (Accounts s) where
  refl w := ⟨rfl, rfl, fun _ => ⟨[], .refl _⟩⟩
  trans _ _ _ h h' := by
    refine ⟨h'.codecs.trans h.codecs, h'.size.trans h.size, fun hw => ?_⟩
    obtain ⟨moments, hmoments⟩ := h.metered hw
    obtain ⟨moments', hmoments'⟩ := h'.metered (h.codecs ▸ hw)
    exact ⟨_, hmoments.trans hmoments'⟩

theorem accounts_setState {g : GuestState}
    (h : (∀ codec ∈ w.codecs, codec.IsMetered) → ∃ moments, (w.state s').Metered g moments) :
    w.Accounts s (w.setState s' g) where
  codecs := rfl
  size := w.size_setState s' g
  metered hw := rel_setState (P := fun g g' => ∃ moments, g.Metered g' moments)
    (fun g => ⟨[], .refl g⟩) (h hw) s

theorem accounts_of_states (hstates : w'.states = w.states) (hcodecs : w'.codecs = w.codecs) :
    w.Accounts s w' := by
  refine ⟨hcodecs, congrArg Array.size hstates, fun _ => ?_⟩
  rw [state, state, hstates]
  exact ⟨[], .refl _⟩

/-- What is done on the side in one state is as it should be on all accounts. -/
theorem Accounts.of_stepAside {kind : Aside}
    (h : (w.setState s' ((w.state s').stepAside kind)).Accounts s w') :
    w.Accounts s (w'.setState s' ((w'.state s').setHook (w.state s').hook)) := by
  have hsize : w'.states.size = w.states.size := h.size.trans (w.size_setState s' _)
  refine ⟨h.codecs, (w'.size_setState s' _).trans hsize, fun hw => ?_⟩
  obtain ⟨moments, hmoments⟩ := h.metered hw
  refine ⟨moments, ?_⟩
  by_cases hs : s' = s
  · obtain rfl := hs
    by_cases hthere : s' < w.states.size
    · rw [state_setState hthere] at hmoments
      rw [state_setState (Nat.lt_of_lt_of_eq hthere hsize.symm)]
      exact hmoments.of_stepAside
    · have hle := Nat.not_lt.1 hthere
      rw [setState_of_le hle] at hmoments
      rwa [setState_of_le (Nat.le_trans (Nat.le_of_eq hsize) hle)]
  · rw [state_setState_of_ne hs] at hmoments ⊢
    exact hmoments

/-- **Conversions and calls keep accounts**, in every state. -/
theorem serves_accounts (s : Nat) : Serves Everywhere (Accounts s) where
  evaluate _ _ :=
    ⟨fun _ _ h => accounts_setState fun _ => h.metered, fun _ _ _ h => h.of_stepAside⟩
  grow _ _ _ _ h := accounts_setState fun _ => ⟨[], h.metered⟩
  encode _ _ _ _ _ h := accounts_setState fun hw => hw _ h _ _
  wrap _ _ _ _ := accounts_of_states rfl rfl
  handle _ := accounts_of_states rfl rfl
  record _ _ _ _ _ := accounts_of_states rfl rfl

/-! ## Coroutines

What runs in a coroutine may execute anything and call anything, and none of it is even counted: the
hook is one of the thread that scripts are run on, and it is back at the end. -/

/-- Nothing was charged to a guest state, whatever was executed in it. -/
structure Uncharged (s : Nat) (w w' : World) : Prop where
  codecs : w'.codecs = w.codecs
  size : w'.states.size = w.states.size
  spent : (∀ codec ∈ w.codecs, codec.IsMetered) →
    (w'.state s).budget = (w.state s).budget ∧ (w'.state s).pending = (w.state s).pending

instance (s : Nat) : IsPreorder World (Uncharged s) where
  refl w := ⟨rfl, rfl, fun _ => ⟨rfl, rfl⟩⟩
  trans _ _ _ h h' := by
    refine ⟨h'.codecs.trans h.codecs, h'.size.trans h.size, fun hw => ?_⟩
    obtain ⟨hbudget, hpending⟩ := h.spent hw
    obtain ⟨hbudget', hpending'⟩ := h'.spent (h.codecs ▸ hw)
    exact ⟨hbudget'.trans hbudget, hpending'.trans hpending⟩

/-- What is executed without a hook is not charged. -/
theorem Accounts.uncharged
    (h : (w.setState s ((w.state s).stepAside .coroutine)).Accounts s w') :
    w.Uncharged s (w'.setState s ((w'.state s).setHook (w.state s).hook)) := by
  have hsize : w'.states.size = w.states.size := h.size.trans (w.size_setState s _)
  refine ⟨h.codecs, (w'.size_setState s _).trans hsize, fun hw => ?_⟩
  obtain ⟨moments, hmoments⟩ := h.metered hw
  by_cases hs : s < w.states.size
  · rw [state_setState hs] at hmoments
    have habsent : ((w.state s).stepAside .coroutine).hook = .absent :=
      Hook.aside_coroutine (w.state s).hook
    obtain rfl : moments = [] := hmoments.quiet fun hcharging => by
      rw [habsent] at hcharging
      cases hcharging
    rw [state_setState (Nat.lt_of_lt_of_eq hs hsize.symm)]
    exact ⟨hmoments.budget, hmoments.absent habsent⟩
  · have hle := Nat.not_lt.1 hs
    rw [state_of_le hle, state_of_le]
    · exact ⟨rfl, rfl⟩
    · rw [size_setState, hsize]
      exact hle

end World

namespace Execution

variable {s : Nat} {α : Type} {calls : Calls}

end Execution
end ScriptPool
