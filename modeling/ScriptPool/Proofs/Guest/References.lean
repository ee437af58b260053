import ScriptPool.Proofs.Guest.Calls

/-!
# References stay good

Nothing goes away from the heap of a guest state, so a reference into it is good for as long as the
state exists.  That is a statement about everything that can be done with a world: scripts,
functions of the host that call back, and conversions in both directions.

## What is here

* `World.LeadsTo` — the states of a world are there afterwards, and so is what is in their heaps.
* `World.admits_leadsTo` — **conversions and calls leave references good.**
-/

set_option autoImplicit false

namespace ScriptPool

/-! ## States -/

namespace GuestState

variable {g g' : GuestState}

theorem leadsTo_newFunction (g : GuestState) (f : Closure) : g.LeadsTo (g.newFunction f).2 := by
  refine ⟨Nat.le_refl _, ?_, Nat.le_refl _, id⟩
  show g.functions.size ≤ (g.functions.push f).size
  rw [Array.size_push]
  exact Nat.le_succ _

theorem leadsTo_newUserdata (g : GuestState) (u : Userdata) : g.LeadsTo (g.newUserdata u).2 := by
  refine ⟨Nat.le_refl _, Nat.le_refl _, ?_, id⟩
  show g.userdata.size ≤ (g.userdata.push u).size
  rw [Array.size_push]
  exact Nat.le_succ _

theorem LeadsTo.of_change (h : g.Change g') : g.LeadsTo g' := by
  cases h with
  | account => exact ⟨Nat.le_refl _, Nat.le_refl _, Nat.le_refl _, id⟩
  | modifyTable id f =>
    have hsize : (g.modifyTable id f).tables.size = g.tables.size := Array.size_modify
    exact ⟨Nat.le_of_eq hsize.symm, Nat.le_refl _, Nat.le_refl _, fun h id hid => hsize ▸ h id hid⟩
  | newTable t => exact g.leadsTo_newTable t
  | newFunction f => exact g.leadsTo_newFunction f
  | newThread => exact ⟨Nat.le_refl _, Nat.le_refl _, Nat.le_refl _, id⟩
  | setStatus => exact ⟨Nat.le_refl _, Nat.le_refl _, Nat.le_refl _, id⟩

theorem LeadsTo.of_changes (h : g.Changes g') : g.LeadsTo g' := by
  induction h with
  | refl => exact .refl g
  | tail _ h ih => exact ih.trans (.of_change h)

/-- The marker is in the heap after it was asked for. -/
theorem leadsTo_arrayMarkerTable (g : GuestState) : g.LeadsTo g.arrayMarkerTable.2 := by
  rw [arrayMarkerTable]
  split
  · exact .refl g
  · have hnew := g.leadsTo_newTable { entries := [(.ofString "__shape", .ofString "array")] }
    refine ⟨hnew.tables, hnew.functions, hnew.userdata, fun _ id hid => ?_⟩
    obtain rfl : g.tables.size = id := Option.some.inj hid
    show g.tables.size < (g.tables.push _).size
    rw [Array.size_push]
    exact Nat.lt_succ_self _

theorem LeadsTo.of_growth (h : g.Growth g') : g.LeadsTo g' := by
  cases h with
  | newTable t => exact g.leadsTo_newTable t
  | marker => exact g.leadsTo_arrayMarkerTable
  | newFunction f => exact g.leadsTo_newFunction f
  | carry v => exact g.leadsTo_newUserdata _

theorem LeadsTo.of_grows (h : g.Grows g') : g.LeadsTo g' := by
  induction h with
  | refl => exact .refl g
  | tail _ h ih => exact ih.trans (.of_growth h)

end GuestState

/-! ## Worlds -/

/-- The states of a world are there afterwards, and references into their heaps are still good. -/
structure World.LeadsTo (w w' : World) : Prop where
  states : w.states.size ≤ w'.states.size
  state : ∀ s, (w.state s).LeadsTo (w'.state s)

instance : IsPreorder World World.LeadsTo where
  refl _ := ⟨Nat.le_refl _, fun _ => .refl _⟩
  trans _ _ _ h h' := ⟨Nat.le_trans h.states h'.states, fun s => (h.state s).trans (h'.state s)⟩

namespace World

variable {w w' : World} {s : Nat} {g : GuestState}

theorem LeadsTo.of_states (h : w'.states = w.states) : w.LeadsTo w' := by
  refine ⟨Nat.le_of_eq (congrArg Array.size h.symm), fun s => ?_⟩
  rw [World.state, World.state, h]
  exact .refl _

theorem leadsTo_setState (h : (w.state s).LeadsTo g) : w.LeadsTo (w.setState s g) :=
  ⟨Nat.le_of_eq (w.size_setState s g).symm, rel_setState .refl h⟩

/-- **Conversions and calls leave references good.** -/
theorem admits_leadsTo : Admits Everywhere LeadsTo where
  evaluate _ _ := ⟨fun _ _ h => leadsTo_setState (.of_changes h)⟩
  grow _ _ _ _ h := leadsTo_setState (.of_grows h)
  encode w s codec custom _ _ := leadsTo_setState (codec.leadsTo custom (w.state s))
  wrap _ _ _ _ := .of_states rfl
  handle _ := .of_states rfl
  record _ _ _ _ _ := .of_states rfl

end World
end ScriptPool
