import ScriptPool.Proofs.Interpreter.Globals

/-!
# Interpreters that have not been used

An interpreter that was made or reset and not used since then is as good as new as far as its
globals go, and nobody can get at it: all functions that it ever handed out are past their scope.
So it stays so whatever is done elsewhere.

## What is here

* `World.OnlyEnds` — nothing has become of a world but that scopes have ended.
* `Interpreter.Restorable`, `Interpreter.Unused` — an interpreter that a reset brings back to the
  state of a new one, and one that was not used since it was made or reset.
* `World.Leaves` — what leaves all other interpreters so; `Confined.leaves`, `OnlyEnds.leaves`,
  `leaves_newState` and `leaves_newFunction` say what does.
* `Interpreter.unused_plain`, `Interpreter.unused_restored` — **an interpreter is unused when it has
  been made, and again when it has been restored.**
* `World.stir`, `Interpreter.Tended` — the states in which finalizers have been called, and what is
  known of an interpreter when that is taken into account; `Interpreter.tended_reset` — of one that
  was reset.
-/

set_option autoImplicit false

namespace ScriptPool

/-! ## Worlds in which scopes have ended -/

namespace World

/-- Nothing has become of a world but that scopes have ended. -/
structure OnlyEnds (u w : World) : Prop where
  codecs : w.codecs = u.codecs
  functions : w.functions = u.functions
  size : w.states.size = u.states.size
  state : ∀ s, ∃ epoch, (u.state s).epoch ≤ epoch ∧ w.state s = { u.state s with epoch }

variable {u v w : World} {s : Nat}

instance : IsPreorder World OnlyEnds where
  refl _ := ⟨rfl, rfl, rfl, fun _ => ⟨_, Nat.le_refl _, rfl⟩⟩
  trans _ _ _ h h' := by
    refine ⟨h'.codecs.trans h.codecs, h'.functions.trans h.functions, h'.size.trans h.size,
      fun s => ?_⟩
    obtain ⟨epoch, hle, hv⟩ := h.state s
    obtain ⟨epoch', hle', hw⟩ := h'.state s
    rw [hv] at hle' hw
    exact ⟨epoch', Nat.le_trans hle hle', hw⟩

theorem allowsEnds_onlyEnds (P : Nat → Prop) : AllowsEnds P OnlyEnds := fun s w _ => by
  rw [endScope, modifyState_eq]
  exact ⟨rfl, rfl, w.size_setState s _,
    rel_setState (P := fun g g' => ∃ epoch, g.epoch ≤ epoch ∧ g' = { g with epoch })
      (fun g => ⟨_, Nat.le_refl _, rfl⟩) ⟨_, Nat.le_succ _, rfl⟩⟩

namespace OnlyEnds

theorem evolves (h : u.OnlyEnds w) (hu : u.Regular) : u.Evolves w := by
  refine ⟨⟨h.codecs ▸ hu.codecs, fun i f hf => ?_⟩, h.size, fun s => ?_⟩
  · rw [h.functions] at hf
    obtain ⟨hlt, hle⟩ := hu.issued i f hf
    obtain ⟨epoch, hepoch, hstate⟩ := h.state f.state
    rw [h.size, hstate]
    exact ⟨hlt, Nat.le_trans hle hepoch⟩
  · obtain ⟨epoch, -, hstate⟩ := h.state s
    rw [hstate]
    exact ⟨rfl, rfl, Nat.le_refl _, fun _ _ hf => hf⟩

/-- A function that has expired never comes back. -/
theorem quiet (h : u.OnlyEnds w) (hu : u.Regular) (hquiet : u.Quiet s) : w.Quiet s := by
  intro i f hf hs
  rw [h.functions] at hf
  obtain ⟨epoch, hepoch, hstate⟩ := h.state f.state
  have hold : (u.state f.state).epoch ≠ f.issued := beq_eq_false_iff_ne.1 (hquiet i f hf hs)
  have hle := (hu.issued i f hf).2
  rw [isLive, hstate]
  exact beq_eq_false_iff_ne.2 (show epoch ≠ f.issued by omega)

end OnlyEnds

end World

/-! ## Interpreters

An interpreter can be brought back as long as it has its pictures, however it was used.  To be
unused is more than that: its globals read as those of a new one, and it is quiet. -/

namespace Interpreter

/-- A reset brings the interpreter back to the state of a new one: its pictures are of one, and its
state is built around the same things. -/
structure Restorable (limits : ResourceLimits) (w : World) (i : Interpreter) : Prop where
  there : i.state < w.states.size
  baseline : i.baseline = .pictures (.limited limits) (.limited limits)
    (GuestState.limited limits).stringMeta
  retains : (GuestState.limited limits).Retains (w.state i.state)

/-- Nobody has used the interpreter since it was made or reset, and nobody can get at it. -/
structure Unused (limits : ResourceLimits) (w : World) (i : Interpreter) : Prop
    extends Restorable limits w i where
  untainted : i.tainted = none
  binds : GuestState.BindsOnly (.limited limits) [] (w.state i.state)
  quiet : w.Quiet i.state

variable {limits : ResourceLimits} {i j : Interpreter} {w : World}

/-- How often an interpreter was lent and the like have nothing to do with its state. -/
theorem Restorable.congr (h : i.Restorable limits w) (hstate : j.state = i.state)
    (hbaseline : j.baseline = i.baseline) : j.Restorable limits w :=
  ⟨hstate ▸ h.there, hbaseline.trans h.baseline, hstate ▸ h.retains⟩

theorem Unused.congr (h : i.Unused limits w) (hstate : j.state = i.state)
    (hbaseline : j.baseline = i.baseline) (htainted : j.tainted = i.tainted) :
    j.Unused limits w :=
  ⟨h.toRestorable.congr hstate hbaseline, htainted.trans h.untainted, hstate ▸ h.binds,
    hstate ▸ h.quiet⟩

end Interpreter

/-! ## What leaves them so

Interpreters have different states, so what is done with one of them leaves the others alone.  That
is said with a list of the states that something was done in. -/

namespace World

/-- Something has become of a world that leaves all interpreters as they are, but for those in
certain states, which may have been used. -/
structure Leaves (limits : ResourceLimits) (P : Nat → Prop) (u w : World) : Prop where
  regular : w.Regular
  size : u.states.size ≤ w.states.size
  restorable : ∀ i : Interpreter, i.Restorable limits u → i.Restorable limits w
  unused : ∀ i : Interpreter, ¬ P i.state → i.Unused limits u → i.Unused limits w

variable {limits : ResourceLimits} {P : Nat → Prop} {u w : World} {i : Interpreter}

theorem Leaves.mono (h : Leaves limits P u w) {Q : Nat → Prop} (hPQ : ∀ s, P s → Q s) :
    Leaves limits Q u w :=
  ⟨h.regular, h.size, h.restorable, fun i hi => h.unused i fun hP => hi (hPQ _ hP)⟩

theorem Evolves.restorable (h : u.Evolves w) (hi : i.Restorable limits u) : i.Restorable limits w :=
  ⟨hi.there.trans_eq h.size.symm, hi.baseline, hi.retains.trans (h.retains _)⟩

/-- What is done in some states leaves the interpreters in others as they are. -/
theorem Confined.leaves (h : Confined P u w) : Leaves limits P u w := by
  refine ⟨h.evolves.regular, Nat.le_of_eq h.evolves.size.symm,
    fun i hi => h.evolves.restorable hi, fun i hne hi => ?_⟩
  obtain ⟨hquiet, hstate⟩ := h.spares i.state hne hi.quiet
  refine ⟨h.evolves.restorable hi.toRestorable, hi.untainted, ?_, hquiet⟩
  rw [hstate]
  exact hi.binds

/-- So do ends of scopes, and all of them. -/
theorem OnlyEnds.leaves (h : u.OnlyEnds w) (hu : u.Regular) :
    Leaves limits (fun _ => False) u w := by
  have hevolves := h.evolves hu
  refine ⟨hevolves.regular, Nat.le_of_eq h.size.symm, fun i hi => hevolves.restorable hi,
    fun i _ hi => ?_⟩
  obtain ⟨epoch, -, hstate⟩ := h.state i.state
  refine ⟨hevolves.restorable hi.toRestorable, hi.untainted, ?_, h.quiet hu hi.quiet⟩
  rw [hstate]
  exact hi.binds.ofEpoch epoch

theorem Regular.newState (hu : u.Regular) (g : GuestState) : (u.newState g).2.Regular := by
  refine ⟨hu.codecs, fun i f hf => ?_⟩
  obtain ⟨hlt, hle⟩ := hu.issued i f hf
  rw [size_newState, state_newState_of_lt hlt]
  exact ⟨Nat.lt_succ_of_lt hlt, hle⟩

theorem leaves_newState (hu : u.Regular) (g : GuestState) :
    Leaves limits (fun _ => False) u (u.newState g).2 := by
  have hsize := Nat.le_of_lt (Nat.lt_of_lt_of_eq (Nat.lt_succ_self _) (u.size_newState g).symm)
  have hrestorable : ∀ i : Interpreter, i.Restorable limits u →
      i.Restorable limits (u.newState g).2 := fun i hi => by
    refine ⟨Nat.lt_of_lt_of_le hi.there hsize, hi.baseline, ?_⟩
    rw [state_newState_of_lt hi.there]
    exact hi.retains
  refine ⟨hu.newState g, hsize, hrestorable, fun i _ hi => ?_⟩
  have hstate := state_newState_of_lt hi.there g
  refine ⟨hrestorable i hi.toRestorable, hi.untainted, ?_, fun h f hf hs => ?_⟩
  · rw [hstate]
    exact hi.binds
  · rw [isLive, hs, hstate, ← hs]
    exact hi.quiet h f hf hs

/-- A function of the host gets a handle. -/
theorem leaves_newFunction (hu : u.Regular) (f : HostFunction) :
    Leaves limits (fun _ => False) u (u.newFunction (.host f)).2 := by
  have hguest : ∀ (h : Handle) (g : GuestFunction),
      (u.newFunction (.host f)).2.functions[h]? = some (.guest g) →
        u.functions[h]? = some (.guest g) := fun h g hg => by
    have hpush : (u.functions.push (.host f))[h]? = some (.guest g) := hg
    rw [Array.getElem?_push] at hpush
    split at hpush
    · cases hpush
    · exact hpush
  have hevolves : u.Evolves (u.newFunction (.host f)).2 := hu.newFunction fun g hg => nomatch hg
  refine ⟨hevolves.regular, Nat.le_refl _, fun i hi => hevolves.restorable hi, fun i _ hi => ?_⟩
  exact ⟨hevolves.restorable hi.toRestorable, hi.untainted, hi.binds,
    fun h g hg hs => hi.quiet h g (hguest h g hg) hs⟩

end World

/-! ## What makes them so -/

namespace Interpreter

variable {limits : ResourceLimits} {i : Interpreter} {u w : World}

/-- **A new interpreter is unused.** -/
theorem unused_plain (hu : u.Regular) (id now : Nat) :
    (plain limits id u.states.size now).Unused limits (u.newState (.limited limits)).2 := by
  have hstate := u.state_newState (.limited limits)
  refine ⟨⟨?_, rfl, ?_⟩, rfl, ?_, fun h f hf hs => ?_⟩
  · rw [World.size_newState]
    exact Nat.lt_succ_self _
  · show (GuestState.limited limits).Retains ((u.newState (.limited limits)).2.state u.states.size)
    rw [hstate]
    exact .refl _
  · show GuestState.BindsOnly _ [] ((u.newState (.limited limits)).2.state u.states.size)
    rw [hstate]
    exact GuestState.bindsOnly_limited limits
  · -- no function belongs to a state that was not there
    have hlt : f.state < u.states.size := (hu.issued h f hf).1
    exact absurd hlt (hs ▸ Nat.lt_irrefl _)

theorem evolves_restored (hw : w.Regular) : w.Evolves (i.restored w) := by
  have hends : w.Evolves (w.endScope i.state) := by
    rw [World.endScope, World.modifyState_eq]
    exact hw.setState (GuestState.retains_endScope _) (Nat.le_succ _)
  refine hends.trans ?_
  rw [restored, World.modifyState_eq]
  have hchanges := changes_restore i.baseline ((w.endScope i.state).state i.state)
  exact hends.regular.setState (.of_changes hchanges)
    (Nat.le_of_eq (GuestState.Continues.of_changes hchanges).epoch.symm)

/-- **An interpreter that was restored is unused**, whatever it was used for. -/
theorem unused_restored (hw : w.Regular) (hi : i.Restorable limits w)
    (htainted : i.tainted = none) : i.Unused limits (i.restored w) := by
  have hstate : (i.restored w).state i.state = i.baseline.restore (w.state i.state).endScope :=
    state_restored hi.there
  have hepoch : ((i.restored w).state i.state).epoch = (w.state i.state).epoch + 1 := by
    rw [hstate]
    exact (GuestState.Continues.of_changes (changes_restore _ _)).epoch
  refine ⟨(evolves_restored hw).restorable hi, htainted, ?_, fun h f hf hs => ?_⟩
  · rw [hstate, hi.baseline]
    exact GuestState.bindsOnly_restore (GuestState.isStocked_limited limits)
      (GuestState.hasPlainGlobals_limited limits) hi.retains
  · have hissued := (hw.issued h f hf).2
    rw [World.isLive, hs, show _ = _ from hepoch]
    rw [hs] at hissued
    exact beq_eq_false_iff_ne.2 (Nat.ne_of_gt (Nat.lt_succ_of_le hissued))

end Interpreter

/-! ## Collections

A collection can come at any time, and finalizers that it calls may do anything to the state they
belong to.  So a list is kept of the states in which a collection has found something to finalize;
of these no more is said than that a reset brings them back. -/

/-- The states in which finalizers have been called, after another collection. -/
def World.stir (w : World) (s : Nat) (stirred : List Nat) : List Nat :=
  if w.isSettled s then stirred else s :: stirred

/-- A reset brings the interpreter back, and it is unused, unless finalizers have been called in its
state. -/
structure Interpreter.Tended (limits : ResourceLimits) (stirred : List Nat) (w : World)
    (i : Interpreter) : Prop where
  restorable : i.Restorable limits w
  unused : i.state ∉ stirred → i.Unused limits w

namespace Interpreter

variable {limits : ResourceLimits} {i j : Interpreter} {u w w' : World} {stirred : List Nat}

theorem Unused.tended (h : i.Unused limits w) (stirred : List Nat) : i.Tended limits stirred w :=
  ⟨h.toRestorable, fun _ => h⟩

theorem Tended.congr (h : i.Tended limits stirred w) (hstate : j.state = i.state)
    (hbaseline : j.baseline = i.baseline) (htainted : j.tainted = i.tainted) :
    j.Tended limits stirred w :=
  ⟨h.restorable.congr hstate hbaseline,
    fun hnot => (h.unused (hstate ▸ hnot)).congr hstate hbaseline htainted⟩

theorem Tended.leaves {P : Nat → Prop} (h : i.Tended limits stirred u)
    (hw : World.Leaves limits P u w) (hnot : ¬ P i.state) : i.Tended limits stirred w :=
  ⟨hw.restorable i h.restorable, fun hs => hw.unused i hnot (h.unused hs)⟩

/-- **A collection leaves all interpreters as they are** but one in whose state it finds something
to finalize. -/
theorem Tended.collect {s : Nat} (h : i.Tended limits stirred u) (hu : u.Regular)
    (hs : s < u.states.size) : i.Tended limits (u.stir s stirred) ((World.collect s).run u).2 := by
  rw [World.stir]
  split
  · rename_i hsettled
    rwa [World.run_collect hsettled]
  · have hleaves : World.Leaves limits (· = s) u ((World.collect s).run u).2 :=
      ((World.isLocal_collect s).confined hu hs).leaves
    refine ⟨hleaves.restorable i h.restorable, fun hnot => ?_⟩
    obtain ⟨hne, hnot⟩ := not_or.1 (mt List.mem_cons.2 hnot)
    exact hleaves.unused i hne (h.unused hnot)

/-- **An interpreter that was reset is unused**, unless the reset has found something to finalize.
-/
theorem tended_reset {r : Except GuestFault Unit} (hw : w.Regular) (hi : i.Restorable limits w)
    (htainted : i.tainted = none)
    (hcollect : (World.collect i.state).run (i.restored w) = (r, w')) (stirred : List Nat) :
    i.Tended limits ((i.restored w).stir i.state stirred) w' := by
  have hunused := unused_restored hw hi htainted
  have htended := (hunused.tended stirred).collect (evolves_restored hw).regular hunused.there
  rwa [hcollect] at htended

end Interpreter
end ScriptPool
