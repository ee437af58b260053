import ScriptPool.Proofs.Guest.Layout
import ScriptPool.Proofs.Guest.Scopes
import ScriptPool.Proofs.Interpreter.Running

/-!
# Guest states that are left alone

Whoever works in one guest state can get at another one only by calling a function of it, and such a
function does nothing once its scope is over.  So a state none of whose functions is good any more
is left alone by everything that is done in other states.

## What is here

* `World.Regular` — codecs only add to the heap, and every function that was handed out belongs to a
  state that is there and to a scope that has begun.
* `World.Evolves` — what a regular world can become while no state is made.
* `World.Quiet`, `World.Spares` — no function of a state is good, and the state is left alone then.
* `World.Confined` — what is done in one state: the world evolves and all other states are spared.
* `World.IsLocal`, `World.IsLocal.confined` — **programs that work in one state are confined to
  it**, such as running a script, executing one with values of the host, and a collection.
* `World.confined_call` — **calling a function from outside** leaves every state alone none of whose
  functions is good.
-/

set_option autoImplicit false

namespace ScriptPool

namespace World

/-! ## Regular worlds

What was handed out must not be good for a scope that is yet to come, or a quiet state would not
stay quiet.  So epochs are bounded here, and codecs are held to working in the state that they are
asked in. -/

/-- Codecs only add to the heap of a state.  Every function that was handed out belongs to a state
that is there, and was handed out in its present scope or in an earlier one. -/
structure Regular (w : World) : Prop where
  codecs : ∀ codec ∈ w.codecs, codec.Grows
  issued : ∀ (h : Handle) (f : GuestFunction), w.functions[h]? = some (.guest f) →
    f.state < w.states.size ∧ f.issued ≤ (w.state f.state).epoch

/-- The empty world is so. -/
theorem regular_empty : ({} : World).Regular :=
  ⟨fun _ h => absurd h (Array.not_mem_empty _), fun _ _ h => nomatch h⟩

/-- What has become of a world in which no state was made: it is regular, and its states are built
around the same things. -/
structure Evolves (u w : World) : Prop where
  regular : w.Regular
  size : w.states.size = u.states.size
  retains : ∀ s, (u.state s).Retains (w.state s)

/-- What may become of a regular world with so many states. -/
def Evolving (n : Nat) (u w : World) : Prop := u.Regular → u.states.size = n → u.Evolves w

variable {u v w : World} {s n : Nat} {g : GuestState}

theorem Regular.evolves (h : u.Regular) : u.Evolves u := ⟨h, rfl, fun _ => .refl _⟩

theorem Evolves.trans (h : u.Evolves v) (h' : v.Evolves w) : u.Evolves w :=
  ⟨h'.regular, h'.size.trans h.size, fun s => (h.retains s).trans (h'.retains s)⟩

instance (n : Nat) : IsPreorder World (Evolving n) where
  refl _ h _ := h.evolves
  trans _ _ _ h h' hu hn := (h hu hn).trans (h' (h hu hn).regular ((h hu hn).size.trans hn))

theorem Regular.setState (h : u.Regular) (hretains : (u.state s).Retains g)
    (hepoch : (u.state s).epoch ≤ g.epoch) : u.Evolves (u.setState s g) := by
  have hepochs := rel_setState (P := fun g g' => g.epoch ≤ g'.epoch) (fun _ => Nat.le_refl _) hepoch
  refine ⟨⟨h.codecs, fun i f hf => ?_⟩, u.size_setState s g, rel_setState .refl hretains⟩
  obtain ⟨hlt, hle⟩ := h.issued i f hf
  exact ⟨hlt.trans_eq (u.size_setState s g).symm, Nat.le_trans hle (hepochs f.state)⟩

/-- A handle is given out. -/
theorem Regular.newFunction (h : u.Regular) {f : Callable}
    (hf : ∀ g, f = .guest g → g.state < u.states.size ∧ g.issued ≤ (u.state g.state).epoch) :
    u.Evolves (u.newFunction f).2 := by
  refine ⟨⟨h.codecs, fun i g hg => ?_⟩, rfl, fun _ => .refl _⟩
  have hpush : (u.functions.push f)[i]? = some (.guest g) := hg
  rw [Array.getElem?_push] at hpush
  split at hpush
  · exact hf g (Option.some.inj hpush)
  · exact h.issued i g hpush

/-- A function that is called stays what it is. -/
theorem getElem?_record {i h : Handle} {f : HostFunction} {args : List Value}
    (hf : w.functions[h]? = some (.host f)) {g : GuestFunction} :
    (w.functions.setIfInBounds h (.host { f with calls := f.calls ++ [args] }))[i]?
      = some (.guest g) ↔ w.functions[i]? = some (.guest g) := by
  by_cases heq : h = i
  · obtain rfl := heq
    obtain ⟨hlt, -⟩ := Array.getElem?_eq_some_iff.1 hf
    rw [Array.getElem?_setIfInBounds_self_of_lt hlt, hf]
    exact iff_of_false (fun h => nomatch h) fun h => nomatch h
  · rw [Array.getElem?_setIfInBounds_ne heq]

/-- **Conversions and calls let a world evolve**, in the states that are there. -/
theorem admits_evolving (n : Nat) : Admits (· < n) (Evolving n) where
  evaluate _ _ := ⟨fun _ _ h hu _ =>
    hu.setState (.of_changes h) (Nat.le_of_eq (GuestState.Continues.of_changes h).epoch.symm)⟩
  grow _ _ _ _ h hu _ :=
    hu.setState (.of_grows h) (Nat.le_of_eq (GuestState.Continues.of_grows h).epoch.symm)
  encode w s codec custom _ hc hu _ := by
    have h := hu.codecs codec hc custom (w.state s)
    exact hu.setState (.of_grows h) (Nat.le_of_eq (GuestState.Continues.of_grows h).epoch.symm)
  wrap w f hf hissued hu hn := hu.newFunction fun g hg => by
    obtain rfl := Callable.guest.inj hg
    exact ⟨hn ▸ hf, Nat.le_of_eq hissued⟩
  handle _ hu _ := ⟨⟨hu.codecs, hu.issued⟩, rfl, fun _ => .refl _⟩
  record w h f args hf hu _ :=
    ⟨⟨hu.codecs, fun i g hg => hu.issued i g ((getElem?_record hf).1 hg)⟩, rfl, fun _ => .refl _⟩
  apart w _ h f hs hf _ hu hn := absurd (hn ▸ (hu.issued h f hf).1) hs

/-- So do ends of scopes. -/
theorem allowsEnds_evolving (P : Nat → Prop) (n : Nat) : AllowsEnds P (Evolving n) :=
  fun s w _ hu _ => by
    rw [endScope, modifyState_eq]
    exact hu.setState (GuestState.retains_endScope _) (Nat.le_succ _)

/-! ## Quiet states

There is only one way from one state into another, which is a function that was handed out there.
Where none of these is good, nobody finds a way in, and a state that nobody gets into hands out
nothing. -/

/-- No function of a state that was handed out is good. -/
def Quiet (w : World) (s : Nat) : Prop :=
  ∀ (h : Handle) (f : GuestFunction), w.functions[h]? = some (.guest f) → f.state = s →
    w.isLive f = false

/-- A state is left alone, provided that none of its functions is good, and none is then. -/
def Spares (s : Nat) (u w : World) : Prop := u.Quiet s → w.Quiet s ∧ w.state s = u.state s

instance (s : Nat) : IsPreorder World (Spares s) where
  refl _ h := ⟨h, rfl⟩
  trans _ _ _ h h' hu := by
    obtain ⟨hv, hstate⟩ := h hu
    obtain ⟨hw, hstate'⟩ := h' hv
    exact ⟨hw, hstate'.trans hstate⟩

/-- What leaves a state as it is and hands out none of its functions spares it. -/
theorem spares_of_state (hstate : w.state s = u.state s)
    (hfunctions : ∀ (h : Handle) (f : GuestFunction), w.functions[h]? = some (.guest f) →
      f.state = s → u.functions[h]? = some (.guest f)) : u.Spares s w := by
  refine fun hu => ⟨fun h f hf hs => ?_, hstate⟩
  have hlive := hu h f (hfunctions h f hf hs) hs
  rw [isLive, hs] at hlive ⊢
  rwa [hstate]

/-- **Conversions and calls in other states spare a state.** -/
theorem admits_spares (s : Nat) : Admits (· ≠ s) (Spares s) where
  evaluate _ hs := ⟨fun _ _ _ => spares_of_state (state_setState_of_ne hs _) fun _ _ h _ => h⟩
  grow _ _ _ hs _ := spares_of_state (state_setState_of_ne hs _) fun _ _ h _ => h
  encode _ _ _ _ hs _ := spares_of_state (state_setState_of_ne hs _) fun _ _ h _ => h
  wrap w f hf _ := spares_of_state rfl fun i g hg hs => by
    have hpush : (w.functions.push (.guest f))[i]? = some (.guest g) := hg
    rw [Array.getElem?_push] at hpush
    split at hpush
    · obtain rfl := Callable.guest.inj (Option.some.inj hpush)
      exact absurd hs hf
    · exact hpush
  handle _ := spares_of_state rfl fun _ _ h _ => h
  record _ _ _ _ hf := spares_of_state rfl fun _ _ hg _ => (getElem?_record hf).1 hg
  apart w _ h f hs hf hlive hu := by
    rw [hu h f hf (not_not.1 hs)] at hlive
    cases hlive

theorem allowsEnds_spares (s : Nat) : AllowsEnds (· ≠ s) (Spares s) := fun other w hne => by
  rw [endScope, modifyState_eq]
  exact spares_of_state (state_setState_of_ne hne _) fun _ _ h _ => h

/-! ## What is done in one state

The two relations are proved of each program together: the world evolves, and states other than the
one that is worked in are spared. -/

/-- Something is done in certain states: the world evolves, and other states are spared. -/
structure Confined (P : Nat → Prop) (u w : World) : Prop where
  evolves : u.Evolves w
  spares : ∀ s, ¬ P s → u.Spares s w

/-- A program works in one guest state: whatever relation allows for conversions and calls there,
and for ending its scope, allows for the program. -/
def IsLocal {α : Type} (s : Nat) (t : Transition α) : Prop :=
  ∀ (P : Nat → Prop) (R : World → World → Prop) [IsPreorder World R], Admits P R →
    AllowsEnds P R → P s → Transition.Keeps R t

/-- **A program that works in one state is confined to it.** -/
theorem IsLocal.confined {α : Type} {t : Transition α} (h : IsLocal s t) (hu : u.Regular)
    (hs : s < u.states.size) : u.Confined (· = s) (t.run u).2 where
  evolves := h _ _ (admits_evolving u.states.size) (allowsEnds_evolving _ _) hs u hu rfl
  spares other hne := h _ _ (admits_spares other) (allowsEnds_spares other) (Ne.symm hne) u

/-- **Calling a function from outside** leaves every state alone none of whose functions is good. -/
theorem confined_call (hu : u.Regular) (f : FunctionValue) (args : List Value) :
    u.Confined (fun _ => False) ((call f args).run u).2 where
  evolves := keeps_call (admits_evolving u.states.size).serves f args u hu rfl
  spares s _ := keeps_call (admits_spares s).serves f args u

theorem isLocal_run (i : Interpreter) (script : Script) : IsLocal i.state (i.run script) :=
  fun _ _ _ hR _ hi => i.keeps_run hR.hosts hi script

theorem isLocal_execute (i : Interpreter) (c : Converter) (script : Script)
    (globals : List (String × Value)) : IsLocal i.state (i.execute c script globals) :=
  fun _ _ _ hR _ hi => i.keeps_execute hR.hosts hi c script globals

theorem isLocal_collect (s : Nat) : IsLocal s (collect s) :=
  fun _ _ _ hR _ hs => keeps_collect hR.serves hs

end World
end ScriptPool
