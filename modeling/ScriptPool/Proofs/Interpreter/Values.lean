import ScriptPool.Proofs.Convert.Marker
import ScriptPool.Proofs.Interpreter.Exact

/-!
# Values that cross after a reset

The metatable that marks empty arrays is made by the first conversion that needs it, so it is in no
baseline, and scripts get hold of it as the metatable of an array that they were given.  What one
borrower does to it is there for those who come after, and a reset does not take it back.

## What is here

* `GuestState.marksArrays` — whether a state marks empty arrays, as a test.
* `Interpreter.roundTrip_reset` — **what comes back after a reset**, compared with a new
  interpreter.
-/

set_option autoImplicit false

namespace ScriptPool

namespace GuestState

/-- Does the metatable that marks empty arrays mark them, if it has been made? -/
def marksArrays (g : GuestState) : Bool :=
  match g.arrayMarker with
  | none => true
  | some id =>
      match ((g.table id).field "__shape").toHostString? with
      | .ok (some shape) => shape == "array"
      | _ => false

theorem MarksArrays.marksArrays {g : GuestState} (h : g.MarksArrays) : g.marksArrays = true := by
  rw [GuestState.marksArrays]
  cases hm : g.arrayMarker with
  | none => rfl
  | some id =>
    obtain ⟨t, ht, hfield⟩ := h id hm
    dsimp only
    rw [table_of_getElem? ht, hfield]
    rfl

end GuestState

namespace Interpreter

variable {limits : ResourceLimits} {id now : Nat} {i j k : Interpreter} {u u' w w' : World}
  {c : Converter} {x : Value}

/-- **What comes back after a reset.**  In a new interpreter a value comes back in its normal form.
Whatever was done with the interpreter and besides since then, after a reset that succeeds it does
so too, if it has no empty arrays in it or the metatable of those still marks them.  If it does not,
no value comes back with an empty array in it. -/
theorem roundTrip_reset (hnew : (World.newInterpreter limits id now).run u = (.ok i, u'))
    (hist : i.History u' j w) (hreset : j.reset.run w = ((.ok (), k), w')) (hc : c.codecs = [])
    (hx : x.Crosses) (hdepth : x.depth ≤ c.maxDepth) :
    (∃ w₁, c.RoundTrip i.state u' x (x.normBy settled) w₁)
      ∧ ((∃ w₁, c.RoundTrip i.state w' x (x.normBy settled) w₁)
        ↔ (x.HasEmptyArray → (w'.state i.state).MarksArrays))
      ∧ (¬ (w'.state i.state).MarksArrays → ∀ y w₁, c.RoundTrip i.state w' x y w₁ →
        ¬ y.HasEmptyArray) := by
  obtain ⟨v, hmade⟩ := World.made_of_newInterpreter hnew
  obtain ⟨hlt, hpristine⟩ := hmade.fresh
  have hleads : u'.LeadsTo w' := by
    have hlast := j.leadsTo_reset w
    rw [hreset] at hlast
    exact trans_of World.LeadsTo hist.spec.2.2 hlast
  have hlt' := Nat.lt_of_lt_of_le hlt hleads.states
  have hheap := (hleads.state i.state).marker hpristine.hasMarker
  obtain ⟨w₁, htrip, -⟩ := Converter.roundTrip_normBy hc hmade.ready hx hdepth
  exact ⟨⟨w₁, htrip⟩, Converter.roundTrip_iff_marksArrays hc hlt' hheap hx hdepth,
    fun hmarks y w₂ h => h.not_hasEmptyArray hc hlt' hheap hmarks hx⟩

/-- A script that takes the mark off the metatable of an array. -/
def unmarking : Script :=
  [.setField (.metatableOf (.get [.string "x".toUTF8])) (.literal (.string "__shape".toUTF8))
    (.literal .nil)]

/-- Does a state not mark empty arrays any more once that script was executed with one and there was
a reset, which did not fail? -/
def staysUnmarked (i : Interpreter) (u : World) : Bool :=
  let ((_, j), w) := (i.execute {} unmarking [("x", .array [])]).run u
  let ((r, _), w') := j.reset.run w
  r.isOk && !(w'.state i.state).marksArrays

/-- Then there is a history in which it is so. -/
theorem exists_of_staysUnmarked (h : i.staysUnmarked u' = true) : ∃ j w k w',
    i.History u' j w ∧ j.reset.run w = ((.ok (), k), w') ∧ ¬ (w'.state i.state).MarksArrays := by
  rw [staysUnmarked] at h
  rcases hrun : (i.execute {} unmarking [("x", .array [])]).run u' with ⟨⟨r, j⟩, w⟩
  rw [hrun] at h
  dsimp only at h
  rcases hreset : j.reset.run w with ⟨⟨_ | ⟨⟩, k⟩, w'⟩
  · rw [hreset] at h
    cases h
  · rw [hreset] at h
    have hist : i.History u' j w := by
      have hstep := Step.execute i u' {} unmarking [("x", .array [])]
      rw [hrun] at hstep
      exact .step .new hstep
    refine ⟨j, w, k, w', hist, hreset, fun hmarks => ?_⟩
    have hnot : (!(w'.state i.state).marksArrays) = true := h
    rw [hmarks.marksArrays] at hnot
    cases hnot

/-- The same of an interpreter that is new in an empty world. -/
def newStaysUnmarked : Bool :=
  match (World.newInterpreter { security := .strict } 0 0).run {} with
  | (.ok i, u') => i.staysUnmarked u'
  | _ => false

/-- A borrower takes the mark off, and empty arrays do not come back for those who come after. -/
theorem roundTrip_reset_unmarked : ∃ i u' j w k w',
    (World.newInterpreter { security := .strict } 0 0).run {} = (.ok i, u')
      ∧ i.History u' j w ∧ j.reset.run w = ((.ok (), k), w')
      ∧ (∃ w₁, Converter.RoundTrip {} i.state u' (.array []) (.array []) w₁)
      ∧ ¬ ∃ w₁, Converter.RoundTrip {} i.state w' (.array []) (.array []) w₁ := by
  have hstays : newStaysUnmarked = true := by decide +kernel
  unfold newStaysUnmarked at hstays
  rcases hnew : (World.newInterpreter { security := .strict } 0 0).run {} with ⟨_ | i, u'⟩
  · rw [hnew] at hstays
    cases hstays
  · rw [hnew] at hstays
    obtain ⟨j, w, k, w', hist, hreset, hmarks⟩ := exists_of_staysUnmarked hstays
    have hdata : (Value.array []).Crosses := .array (by decide) fun _ h => absurd h List.not_mem_nil
    obtain ⟨hfresh, hiff, -⟩ := roundTrip_reset (c := {}) hnew hist hreset rfl hdata (by decide)
    exact ⟨i, u', j, w, k, w', rfl, hist, hreset, hfresh, fun htrip => hmarks (hiff.1 htrip .here)⟩

end Interpreter
end ScriptPool
