import ScriptPool.World

/-!
# The states of a world

Reading a guest state after one was replaced or added.
-/

set_option autoImplicit false

namespace ScriptPool
namespace World

variable {w : World} {s s' : Nat}

theorem state_setState (h : s < w.states.size) (g : GuestState) : (w.setState s g).state s = g := by
  show (w.states.setIfInBounds s g).getD s {} = g
  rw [Array.getD_eq_getD_getElem?, Array.getElem?_setIfInBounds_self_of_lt h]
  rfl

theorem state_setState_of_ne (h : s ≠ s') (g : GuestState) :
    (w.setState s g).state s' = w.state s' := by
  show (w.states.setIfInBounds s g).getD s' {} = w.states.getD s' {}
  rw [Array.getD_eq_getD_getElem?, Array.getD_eq_getD_getElem?, Array.getElem?_setIfInBounds_ne h]

@[simp] theorem size_setState (w : World) (s : Nat) (g : GuestState) :
    (w.setState s g).states.size = w.states.size := Array.size_setIfInBounds

/-- A state that is not there cannot be replaced. -/
theorem setState_of_le (h : w.states.size ≤ s) (g : GuestState) : w.setState s g = w := by
  show { w with states := w.states.setIfInBounds s g } = w
  rw [Array.setIfInBounds_eq_of_size_le h]

theorem state_of_le (h : w.states.size ≤ s) : w.state s = {} := by
  rw [state, Array.getD_eq_getD_getElem?, Array.getElem?_eq_none h]
  rfl

/-- Whatever relates a state to the one that replaces it relates all states before and after, if it
relates a state to itself. -/
theorem rel_setState {P : GuestState → GuestState → Prop} (hrefl : ∀ g, P g g) {g : GuestState}
    (h : P (w.state s) g) (s' : Nat) : P (w.state s') ((w.setState s g).state s') := by
  by_cases hs : s < w.states.size
  · by_cases heq : s = s'
    · obtain rfl := heq
      rwa [state_setState hs]
    · rw [state_setState_of_ne heq]
      exact hrefl _
  · rw [setState_of_le (Nat.not_lt.1 hs)]
    exact hrefl _

@[simp] theorem setState_setState (w : World) (s : Nat) (g g' : GuestState) :
    (w.setState s g).setState s g' = w.setState s g' := by
  show { w with states := (w.states.setIfInBounds s g).setIfInBounds s g' } = w.setState s g'
  rw [Array.setIfInBounds_setIfInBounds]
  rfl

/-- Changing a state is replacing it. -/
theorem modifyState_eq (w : World) (s : Nat) (f : GuestState → GuestState) :
    w.modifyState s f = w.setState s (f (w.state s)) := by
  have hstates : w.states.modify s f = w.states.setIfInBounds s (f (w.state s)) := by
    refine Array.ext_getElem? fun i => ?_
    rw [Array.getElem?_modify, Array.getElem?_setIfInBounds]
    split
    · rename_i heq
      obtain rfl := heq
      split
      · rename_i hlt
        rw [state, Array.getD_eq_getD_getElem?, Array.getElem?_eq_getElem hlt]
        rfl
      · rename_i hge
        rw [Array.getElem?_eq_none (Nat.not_lt.1 hge)]
        rfl
    · rfl
  rw [modifyState, setState, hstates]

/-! ## New states -/

theorem size_newState (w : World) (g : GuestState) :
    (w.newState g).2.states.size = w.states.size + 1 := Array.size_push _

theorem state_newState (w : World) (g : GuestState) :
    (w.newState g).2.state w.states.size = g := by
  show (w.states.push g).getD w.states.size {} = g
  rw [Array.getD_eq_getD_getElem?, Array.getElem?_push_size]
  rfl

/-- A new state is none of those that are there. -/
theorem state_newState_of_lt (hs : s < w.states.size) (g : GuestState) :
    (w.newState g).2.state s = w.state s := by
  show (w.states.push g).getD s {} = w.states.getD s {}
  rw [Array.getD_eq_getD_getElem?, Array.getD_eq_getD_getElem?, Array.getElem?_push_lt hs,
    ← Array.getElem?_eq_getElem hs]

end World
end ScriptPool
