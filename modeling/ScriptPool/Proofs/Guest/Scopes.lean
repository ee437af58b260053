import ScriptPool.Guest.Library
import ScriptPool.Proofs.Guest.Calls
import ScriptPool.Proofs.Guest.Heap

/-!
# The scope of a guest state

A guest state changes hands by a step of its epoch, and a function that was handed out is good for
as long as the epoch is the one that it was handed out in.  So what matters is what else could move
an epoch, or put something else in the place of a function: scripts cannot, conversions cannot, and
calls cannot, however they go back and forth.  Codecs are not under the control of the conversions
that use them, so of them it has to be asked.

## What is here

* `GuestState.Continues` — the same scope goes on, and functions are what they were.
* `Codec.IsCareful`, `World.IsCareful` — codecs that only continue the state they work on; the stock
  codecs are so.
* `World.Abides` — in a careful world no scope ends, and handles of functions keep their meaning.
* `World.admits_abides` — **conversions and calls abide by scopes.**
* `World.IsExpired` — the scope that a function was handed out in is over.
-/

set_option autoImplicit false

namespace ScriptPool

/-! ## States

Two things make a handle good: the epoch in which it was given out, and the function under its
number.  A state continues another if both are still as they were. -/

instance : DecidablePred Value.IsOpaque
  | .error _ | .channel _ | .custom _ => isTrue trivial
  | .nil | .bool _ | .number _ | .string _ | .array _ | .object _ | .function _ => isFalse id

/-- Userdata that holds nothing but what conversions carry in it. -/
def Userdata.IsOpaque : Userdata → Prop
  | .carrier v => v.IsOpaque
  | .foreign => True

instance : DecidablePred Userdata.IsOpaque
  | .carrier v => inferInstanceAs (Decidable v.IsOpaque)
  | .foreign => isTrue trivial

namespace GuestState

/-- All that is carried in userdata was put there by conversions. -/
def Plain (g : GuestState) : Prop := ∀ u ∈ g.userdata, u.IsOpaque

/-- The scope of the state is still the same, and so are the functions in its heap. -/
structure Continues (g g' : GuestState) : Prop where
  epoch : g'.epoch = g.epoch
  functions : ∀ (f : Nat) (c : Closure), g.functions[f]? = some c → g'.functions[f]? = some c
  plain : g.Plain → g'.Plain

variable {g g' g'' : GuestState}

theorem Continues.refl (g : GuestState) : g.Continues g := ⟨rfl, fun _ _ h => h, fun h => h⟩

theorem Continues.trans (h : g.Continues g') (h' : g'.Continues g'') : g.Continues g'' :=
  ⟨h'.epoch.trans h.epoch, fun f c hf => h'.functions f c (h.functions f c hf),
    fun hp => h'.plain (h.plain hp)⟩

theorem continues_newTable (g : GuestState) (t : GuestTable) : g.Continues (g.newTable t).2 :=
  ⟨rfl, fun _ _ h => h, fun h => h⟩

theorem continues_newFunction (g : GuestState) (f : Closure) : g.Continues (g.newFunction f).2 :=
  ⟨rfl, fun _ _ h => getElem?_push_of_some h, fun h => h⟩

theorem Plain.push (h : g.Plain) {u : Userdata} (hu : u.IsOpaque) : (g.newUserdata u).2.Plain := by
  intro x hx
  rcases Array.mem_push.1 hx with hx | rfl
  · exact h x hx
  · exact hu

theorem continues_newUserdata (g : GuestState) {u : Userdata} (hu : u.IsOpaque) :
    g.Continues (g.newUserdata u).2 :=
  ⟨rfl, fun _ _ h => h, fun h => h.push hu⟩

theorem Continues.of_change (h : g.Change g') : g.Continues g' := by
  cases h with
  | newFunction f => exact g.continues_newFunction f
  | _ => exact ⟨rfl, fun _ _ h => h, fun h => h⟩

theorem Continues.of_changes (h : g.Changes g') : g.Continues g' := by
  induction h with
  | refl => exact .refl g
  | tail _ h ih => exact ih.trans (.of_change h)

theorem Continues.of_growth (h : g.Growth g') : g.Continues g' := by
  cases h with
  | newTable t => exact g.continues_newTable t
  | marker =>
    rw [arrayMarkerTable]
    split
    · exact .refl g
    · exact ⟨rfl, fun _ _ h => h, fun h => h⟩
  | newFunction f => exact g.continues_newFunction f
  | carry v hv => exact g.continues_newUserdata (u := .carrier v) hv

theorem Continues.of_grows (h : g.Grows g') : g.Continues g' := by
  induction h with
  | refl => exact .refl g
  | tail _ h ih => exact ih.trans (.of_growth h)

/-- In a state that was just made, nothing has been carried. -/
theorem plain_withLibraries (level : SecurityLevel) : (withLibraries level).Plain := by
  cases level <;> unfold Plain <;> decide +kernel

theorem epoch_withLibraries (level : SecurityLevel) : (withLibraries level).epoch = 0 := by
  cases level <;> decide +kernel

end GuestState

/-! ## Codecs -/

/-- Encoding a custom value continues the state. -/
def Codec.IsCareful (codec : Codec) : Prop :=
  ∀ (custom : Custom) (g : GuestState), g.Continues (codec.encode custom g).2

/-- Codecs that only add to the heap are careful, so the stock codecs are. -/
theorem Codec.Grows.isCareful {codec : Codec} (h : codec.Grows) : codec.IsCareful :=
  fun custom g => .of_grows (h custom g)

/-! ## Worlds

The relation between worlds is the one between their states, for as long as nobody ends a scope.  It
is enough to meet the conditions that calls and conversions need. -/

namespace World

/-- Codecs continue the states they work on, and what userdata carries was put there by conversions.
-/
structure IsCareful (w : World) : Prop where
  codecs : ∀ codec ∈ w.codecs, codec.IsCareful
  plain : ∀ s, (w.state s).Plain

/-- No scope has ended in between, and handles of guest functions still stand for the same
functions. -/
structure Steady (w w' : World) : Prop where
  states : w.states.size ≤ w'.states.size
  state : ∀ s, (w.state s).Continues (w'.state s)
  functions : ∀ (h : Handle) (f : GuestFunction),
    w.functions[h]? = some (.guest f) → w'.functions[h]? = some (.guest f)

/-- What may become of a world, if it is a careful one, while no scope ends. -/
def Abides (w w' : World) : Prop := w.IsCareful → w.Steady w' ∧ w'.IsCareful

variable {w w' w'' : World} {s : Nat}

theorem Steady.refl (w : World) : w.Steady w :=
  ⟨Nat.le_refl _, fun _ => .refl _, fun _ _ h => h⟩

theorem Steady.trans (h : w.Steady w') (h' : w'.Steady w'') : w.Steady w'' :=
  ⟨Nat.le_trans h.states h'.states, fun s => (h.state s).trans (h'.state s),
    fun i f hf => h'.functions i f (h.functions i f hf)⟩

instance : IsPreorder World Abides where
  refl w hw := ⟨.refl w, hw⟩
  trans _ _ _ h h' hw := by
    obtain ⟨hsteady, hw⟩ := h hw
    obtain ⟨hsteady', hw⟩ := h' hw
    exact ⟨hsteady.trans hsteady', hw⟩

theorem abides_setState {g : GuestState} (h : w.IsCareful → (w.state s).Continues g) :
    w.Abides (w.setState s g) := by
  intro hw
  have hstate := rel_setState (w := w) .refl (h hw)
  exact ⟨⟨Nat.le_of_eq (w.size_setState s g).symm, hstate, fun _ _ h => h⟩, hw.codecs,
    fun s' => (hstate s').plain (hw.plain s')⟩

/-- What leaves the states and the codecs alone. -/
theorem abides_of_states (hstates : w'.states = w.states) (hcodecs : w'.codecs = w.codecs)
    (hfunctions : ∀ (h : Handle) (f : GuestFunction),
      w.functions[h]? = some (.guest f) → w'.functions[h]? = some (.guest f)) : w.Abides w' := by
  have hstate : ∀ s, w'.state s = w.state s := fun s => by rw [state, hstates, state]
  refine fun hw => ⟨⟨Nat.le_of_eq (congrArg Array.size hstates.symm), fun s => ?_, hfunctions⟩,
    ⟨hcodecs ▸ hw.codecs, fun s => hstate s ▸ hw.plain s⟩⟩
  rw [hstate]
  exact .refl _

theorem abides_newFunction (w : World) (f : Callable) : w.Abides (w.newFunction f).2 :=
  abides_of_states rfl rfl fun _ _ h => GuestState.getElem?_push_of_some h

/-- A new state is in its first scope. -/
theorem abides_newState (w : World) {g : GuestState} (hepoch : g.epoch = 0) (hplain : g.Plain) :
    w.Abides (w.newState g).2 := by
  intro hw
  have hstate : ∀ s, (w.state s).Continues ((w.newState g).2.state s) ∧
      ((w.newState g).2.state s).Plain := fun s => by
    show (w.state s).Continues ((w.states.push g).getD s {}) ∧ ((w.states.push g).getD s {}).Plain
    rw [Array.getD_eq_getD_getElem?, Array.getElem?_push]
    split
    · rename_i hs
      rw [state_of_le (Nat.le_of_eq hs.symm)]
      exact ⟨⟨hepoch, fun f c hf => (nomatch hf), fun _ => hplain⟩, hplain⟩
    · rw [← Array.getD_eq_getD_getElem?]
      exact ⟨.refl _, hw.plain s⟩
  refine ⟨⟨?_, fun s => (hstate s).1, fun _ _ h => h⟩, hw.codecs, fun s => (hstate s).2⟩
  show w.states.size ≤ (w.states.push g).size
  rw [Array.size_push]
  exact Nat.le_succ _

theorem abides_newCodec (w : World) {codec : Codec} (h : codec.IsCareful) :
    w.Abides (w.newCodec codec).2 := by
  refine fun hw => ⟨⟨Nat.le_refl _, fun _ => .refl _, fun _ _ h => h⟩, fun other ho => ?_, hw.plain⟩
  rcases Array.mem_push.1 ho with ho | rfl
  · exact hw.codecs other ho
  · exact h

/-- **Conversions and calls abide by scopes**, however calls are nested. -/
theorem admits_abides : Admits Everywhere Abides where
  evaluate _ _ := ⟨fun _ _ h => abides_setState fun _ => .of_changes h⟩
  grow _ _ _ _ h := abides_setState fun _ => .of_grows h
  encode _ _ _ _ _ h := abides_setState fun hw => hw.codecs _ h _ _
  wrap w f _ _ := w.abides_newFunction _
  handle _ := abides_of_states rfl rfl fun _ _ h => h
  record w h f args hf := by
    -- what is replaced is a function of the host
    refine abides_of_states rfl rfl fun i g hi => ?_
    rw [Array.getElem?_setIfInBounds_ne, hi]
    rintro rfl
    rw [hf] at hi
    cases hi

/-! ## Functions that were handed out -/

variable {g : GuestFunction}

/-- The scope is over that a function was handed out in. -/
def IsExpired (w : World) (g : GuestFunction) : Prop := g.issued < (w.state g.state).epoch

theorem isLive_iff : w.isLive g = true ↔ (w.state g.state).epoch = g.issued := beq_iff_eq

theorem IsExpired.isLive (h : w.IsExpired g) : w.isLive g = false :=
  Bool.eq_false_iff.2 fun hlive => Nat.ne_of_gt h (isLive_iff.1 hlive)

theorem guestFunction?_eq_some {f : FunctionValue} :
    w.guestFunction? f = some g ↔ w.functions[f.handle]? = some (.guest g) := by
  rw [guestFunction?]
  split
  · rename_i other hother
    rw [hother, Option.some.injEq, Option.some.injEq, Callable.guest.injEq]
  · rename_i hnot
    exact ⟨fun h => (nomatch h), fun h => absurd h (hnot g)⟩

end World
end ScriptPool
