import ScriptPool.Proofs.Guest.Calls
import ScriptPool.Proofs.Guest.Heap

/-!
# What a guest state is built around

A script can put anything under the name of a library, but it cannot make another table the globals
or the metatable of strings, nor change what a function does.  Neither can conversions and calls.
Codecs could, so of them it has to be asked.

## What is here

* `GuestState.Retains` — globals, the metatable of strings and functions are what they were.
* `Codec.Retains` — codecs that leave them so; the stock codecs do.
* `World.Retained` — what may become of a world, as long as all of its codecs are like that.
* `World.admits_retained` — **conversions and calls leave a state built around the same things.**
-/

set_option autoImplicit false

namespace ScriptPool

/-! ## States

A state is built around a few references, for the globals, for the metatable of strings and for the
marker, and around its functions.  Evaluation reads them and never replaces them. -/

namespace GuestState

/-- A state is still built around the same things: what there is to start reading from, and what
functions do. -/
structure Retains (g g' : GuestState) : Prop where
  globals : g'.globals = g.globals
  stringMeta : g'.stringMeta = g.stringMeta
  tables : g.tables.size ≤ g'.tables.size
  functions : ∀ (f : Nat) (c : Closure), g.functions[f]? = some c → g'.functions[f]? = some c

variable {g g' g'' : GuestState}

theorem Retains.refl (g : GuestState) : g.Retains g := ⟨rfl, rfl, Nat.le_refl _, fun _ _ h => h⟩

theorem Retains.trans (h : g.Retains g') (h' : g'.Retains g'') : g.Retains g'' :=
  ⟨h'.globals.trans h.globals, h'.stringMeta.trans h.stringMeta, Nat.le_trans h.tables h'.tables,
    fun f c hf => h'.functions f c (h.functions f c hf)⟩

theorem retains_newTable (g : GuestState) (t : GuestTable) : g.Retains (g.newTable t).2 :=
  ⟨rfl, rfl, (g.leadsTo_newTable t).tables, fun _ _ h => h⟩

theorem retains_newFunction (g : GuestState) (f : Closure) : g.Retains (g.newFunction f).2 :=
  ⟨rfl, rfl, Nat.le_refl _, fun _ _ h => getElem?_push_of_some h⟩

theorem Retains.of_change (h : g.Change g') : g.Retains g' := by
  cases h with
  | modifyTable id f => exact ⟨rfl, rfl, Nat.le_of_eq Array.size_modify.symm, fun _ _ h => h⟩
  | newTable t => exact g.retains_newTable t
  | newFunction f => exact g.retains_newFunction f
  | _ => exact ⟨rfl, rfl, Nat.le_refl _, fun _ _ h => h⟩

theorem Retains.of_changes (h : g.Changes g') : g.Retains g' := by
  induction h with
  | refl => exact .refl g
  | tail _ h ih => exact ih.trans (.of_change h)

theorem Retains.of_growth (h : g.Growth g') : g.Retains g' := by
  cases h with
  | newTable t => exact g.retains_newTable t
  | marker =>
    rw [arrayMarkerTable]
    split
    · exact .refl g
    · have hnew := g.retains_newTable { entries := [(.ofString "__shape", .ofString "array")] }
      exact ⟨rfl, rfl, hnew.tables, fun _ _ h => h⟩
  | newFunction f => exact g.retains_newFunction f
  | carry v => exact ⟨rfl, rfl, Nat.le_refl _, fun _ _ h => h⟩

theorem Retains.of_grows (h : g.Grows g') : g.Retains g' := by
  induction h with
  | refl => exact .refl g
  | tail _ h ih => exact ih.trans (.of_growth h)

/-- So does a state that changes hands. -/
theorem retains_endScope (g : GuestState) : g.Retains g.endScope :=
  ⟨rfl, rfl, Nat.le_refl _, fun _ _ h => h⟩

end GuestState

/-! ## Codecs -/

namespace Codec

/-- Encoding a custom value leaves the state built around the same things. -/
def Retains (codec : Codec) : Prop :=
  ∀ (custom : Custom) (g : GuestState), g.Retains (codec.encode custom g).2

theorem Grows.retains {codec : Codec} (h : codec.Grows) : codec.Retains :=
  fun custom g => .of_grows (h custom g)

end Codec

/-! ## Worlds -/

namespace World

/-- What may become of a world around a guest state.  Codecs are never taken away, so it is enough
to ask of those that are there in the end. -/
def Retained (s : Nat) (w w' : World) : Prop :=
  (∀ codec ∈ w'.codecs, codec.Retains) → (∀ codec ∈ w.codecs, codec.Retains)
    ∧ w.states.size ≤ w'.states.size ∧ (s < w.states.size → (w.state s).Retains (w'.state s))

variable {w w' : World} {s s' : Nat}

instance (s : Nat) : IsPreorder World (Retained s) where
  refl _ hw := ⟨hw, Nat.le_refl _, fun _ => .refl _⟩
  trans _ _ _ h h' hw := by
    obtain ⟨hw, hsize', hstate'⟩ := h' hw
    obtain ⟨hw, hsize, hstate⟩ := h hw
    exact ⟨hw, Nat.le_trans hsize hsize',
      fun hs => (hstate hs).trans (hstate' (Nat.lt_of_lt_of_le hs hsize))⟩

theorem retained_setState {g : GuestState}
    (h : (∀ codec ∈ w.codecs, codec.Retains) → (w.state s').Retains g) :
    w.Retained s (w.setState s' g) :=
  fun hw => ⟨hw, Nat.le_of_eq (w.size_setState s' g).symm,
    fun _ => rel_setState .refl (h hw) s⟩

/-- What leaves the states and the codecs alone. -/
theorem retained_of_states (hstates : w'.states = w.states) (hcodecs : w'.codecs = w.codecs) :
    w.Retained s w' := by
  refine fun hw => ⟨hcodecs ▸ hw, Nat.le_of_eq (congrArg Array.size hstates.symm), fun _ => ?_⟩
  rw [state, state, hstates]
  exact .refl _

/-- A new state is none of those that are there. -/
theorem retained_newState (w : World) (g : GuestState) : w.Retained s (w.newState g).2 := by
  refine fun hw => ⟨hw, ?_, fun hs => ?_⟩
  · rw [size_newState]
    exact Nat.le_succ _
  · rw [state_newState_of_lt hs]
    exact .refl _

theorem retained_newCodec (w : World) (codec : Codec) : w.Retained s (w.newCodec codec).2 :=
  fun hw => ⟨fun other ho => hw other (Array.mem_push_of_mem _ ho), Nat.le_refl _, fun _ => .refl _⟩

/-- **Conversions and calls leave a state built around the same things.** -/
theorem admits_retained (s : Nat) : Admits Everywhere (Retained s) where
  evaluate _ _ := ⟨fun _ _ h => retained_setState fun _ => .of_changes h⟩
  grow _ _ _ _ h := retained_setState fun _ => .of_grows h
  encode _ _ _ _ _ h := retained_setState fun hw => hw _ h _ _
  wrap _ _ _ _ := retained_of_states rfl rfl
  handle _ := retained_of_states rfl rfl
  record _ _ _ _ _ := retained_of_states rfl rfl

end World
end ScriptPool
