import ScriptPool.Proofs.Interpreter.Libraries
import ScriptPool.Proofs.Interpreter.Objects
import ScriptPool.Proofs.Interpreter.Spared

/-!
# The globals of an interpreter

Values of the host are bound to globals one after the other, and any of them may fail to cross.  The
names before it are bound then, and no others: a state that was not used since it was made or
restored has globals without a metatable, so assigning one writes it and does nothing else.

## What is here

* `GuestState.BindsOnly` — all globals are those of a new state, but for certain names.
* `GuestState.bindsOnly_limited`, `GuestState.bindsOnly_restore` — no name is bound in a state that
  is new, and **none is in one that was restored, whatever it was used for**.
* `Interpreter.run_setGlobal`, `Interpreter.run_getGlobal` — assigning and reading in such a state.
* `Interpreter.bindsOnly_bind` — **however binding ends, no other names are bound.**
* `World.run_newInterpreter` — **what making an interpreter does**, if there is no script for new
  ones.
-/

set_option autoImplicit false

namespace ScriptPool

/-! ## States

The invariant goes by names: but for those in a list, every name has the value that it has in a new
state.  Assigning a global adds a name to the list, and whatever only adds to the heap keeps it. -/

theorem GuestTable.isNumber_get {t : GuestTable}
    (h : t.entries.all (fun entry => !entry.2.isNumber) = true) (key : GuestValue) :
    (t.get key).isNumber = false := by
  rw [get]
  cases hkey : key.toKey? with
  | none => rfl
  | some key' =>
    show (t.find key').isNumber = false
    cases hhas : t.has key' with
    | false =>
      rw [find_eq_nil hhas]
      rfl
    | true =>
      have hmem := (mem_of_has (GuestValue.toKey?_of_toKey? hkey) hhas).1
      exact Bool.not_eq_true' _ ▸ List.all_eq_true.1 h _ hmem

/-- What is read instead of something that is no number is the same. -/
theorem GuestValue.ReadsAs.eq {first later : GuestValue} (h : first.ReadsAs later)
    (hfirst : first.isNumber = false) : later = first := by
  rcases h with heq | ⟨-, -, hnumber⟩
  · exact heq
  · rw [hfirst] at hnumber
    cases hnumber

namespace GuestState

/-- The globals have no metatable, and no number is among them. -/
structure HasPlainGlobals (g : GuestState) : Prop where
  metatable : (g.table g.globals).metatable = none
  values : (g.table g.globals).entries.all (fun entry => !entry.2.isNumber) = true

/-- **New states are so**, at every security level. -/
theorem hasPlainGlobals_withLibraries (level : SecurityLevel) :
    (withLibraries level).HasPlainGlobals := by
  cases level <;> exact ⟨by decide +kernel, by decide +kernel⟩

/-- Limits make no difference to that. -/
theorem HasPlainGlobals.install {g : GuestState} (h : g.HasPlainGlobals) (memoryLimit : Nat)
    (b : Budget) : ({ g with memoryLimit }.install b).HasPlainGlobals := ⟨h.metatable, h.values⟩

theorem hasPlainGlobals_limited (limits : ResourceLimits) : (limited limits).HasPlainGlobals :=
  (hasPlainGlobals_withLibraries limits.security).install _ _

/-- The globals are without a metatable and, but for certain names, those of a new state. -/
structure BindsOnly (new : GuestState) (bound : List String) (g : GuestState) : Prop where
  globals : g.globals = new.globals
  there : g.globals < g.tables.size
  metatable : (g.table g.globals).metatable = none
  read : ∀ name ∉ bound,
    g.rawGet g.globals (.ofString name) = new.rawGet new.globals (.ofString name)

variable {new g g' : GuestState} {bound bound' : List String}

namespace BindsOnly

theorem mono (h : BindsOnly new bound g) (hsub : bound ⊆ bound') : BindsOnly new bound' g :=
  ⟨h.globals, h.there, h.metatable, fun name hname => h.read name fun hin => hname (hsub hin)⟩

/-- Nothing is bound by what only adds to the heap. -/
theorem grow (h : BindsOnly new bound g) (hg : g.Extends g') (hglobals : g'.globals = g.globals) :
    BindsOnly new bound g' := by
  have htable : g'.table g.globals = g.table g.globals :=
    table_of_getElem? (hg.tables (getElem?_tables h.there))
  refine ⟨hglobals.trans h.globals, hglobals ▸ Nat.lt_of_lt_of_le h.there hg.size, ?_,
    fun name hname => ?_⟩
  · rw [hglobals, htable]
    exact h.metatable
  · rw [rawGet, hglobals, htable]
    exact h.read name hname

/-- Nothing is bound when the state changes hands. -/
theorem ofEpoch (h : BindsOnly new bound g) (epoch : Nat) : BindsOnly new bound { g with epoch } :=
  ⟨h.globals, h.there, h.metatable, h.read⟩

/-- **A name is bound**, and no other. -/
theorem rawSet (h : BindsOnly new bound g) (name : String) (v : GuestValue) :
    BindsOnly new (name :: bound) (g.rawSet g.globals (.ofString name) v) := by
  have htable : (g.rawSet g.globals (.ofString name) v).table g.globals
      = (g.table g.globals).set (.ofString name) v := table_modifyTable h.there
  refine ⟨h.globals, Nat.lt_of_lt_of_eq h.there size_modifyTable.symm, ?_, fun other hother => ?_⟩
  · show ((g.rawSet g.globals (.ofString name) v).table g.globals).metatable = none
    rw [htable, GuestTable.set_metatable]
    exact h.metatable
  · rw [List.mem_cons, not_or] at hother
    have hne : (GuestValue.ofString name).rawEqual (.ofString other) = false :=
      beq_eq_false_iff_ne.2 fun heq => hother.1 (String.toByteArray_inj.1 heq).symm
    show ((g.rawSet g.globals (.ofString name) v).table g.globals).get (.ofString other) = _
    rw [htable, GuestTable.set_of_key rfl]
    exact (GuestTable.find_store_other hne).trans (h.read other hother.2)

end BindsOnly

/-- No name is bound in a new state. -/
theorem bindsOnly_limited (limits : ResourceLimits) :
    BindsOnly (limited limits) [] (limited limits) :=
  ⟨rfl, (isStocked_limited limits).roots _ List.mem_cons_self,
    (hasPlainGlobals_limited limits).metatable, fun _ _ => rfl⟩

/-- **No name is bound in a state that was restored**, whatever it was used for. -/
theorem bindsOnly_restore {before : GuestState} (hstocked : new.IsStocked)
    (hplain : new.HasPlainGlobals) (hbefore : new.Retains before) :
    BindsOnly new [] ((Baseline.pictures new new new.stringMeta).restore before.endScope) := by
  let b := Baseline.pictures new new new.stringMeta
  have hafter : new.Retains (b.restore before.endScope) :=
    (hbefore.trans (retains_endScope _)).trans (.of_changes (Interpreter.changes_restore b _))
  have hin : new.globals < new.tables.size := hstocked.roots _ List.mem_cons_self
  have hpictured : new.isPictured new.globals = true :=
    Bool.or_eq_true_iff.2 (.inl (List.contains_iff_mem.2 (Baseline.mem_reachable.2 (.inl rfl))))
  have htable := Baseline.table_restore (g := before.endScope) b (Baseline.nodup_pictures _ _ _)
    (Baseline.take_mem_pictures hpictured) (Nat.lt_of_lt_of_le hin hbefore.tables)
  have hreads : (new.table new.globals).ReadsAs
      ((b.restore before.endScope).table new.globals) := by
    show (new.table new.globals).ReadsAs
      ((b.restore before.endScope).table (TableImage.take new new.globals).table)
    rw [htable]
    exact (TableImage.restored_restoreTable (.take new new.globals) _).readsAs
  refine ⟨hafter.globals, ?_, ?_, fun name _ => ?_⟩
  · rw [hafter.globals]
    exact Nat.lt_of_lt_of_le hin hafter.tables
  · rw [hafter.globals]
    exact hreads.metatable.trans hplain.metatable
  · rw [GuestState.rawGet, hafter.globals]
    exact (hreads.get _).eq (GuestTable.isNumber_get hplain.values _)

/-- The globals have no field of a metatable. -/
theorem BindsOnly.metafield (h : BindsOnly new bound g) (name : String) :
    g.metafield (.table g.globals) name = .nil := by
  have hnone : g.metatable? (.table g.globals) = none := h.metatable
  rw [GuestState.metafield, hnone]

end GuestState

/-! ## Assigning and reading globals

Where the globals have no metatable there is no metamethod to ask, so the general rules for indexing
come down to looking up an entry and writing one. -/

namespace Execution

variable {calls : Calls} {chunk : Option String} {s id : Nat} {origin : Origin}
  {key value : GuestValue} {w : World}

/-- Without a metamethod for it, a key of a table is read without further ado. -/
theorem run_index_plain (h : (w.state s).metafield (.table id) "__index" = .nil) :
    (index calls chunk s origin (.table id) key).run.run w
      = (.ok ((w.state s).rawGet id key), w) := by
  show (index.follow calls chunk s origin key (1999 + 1) (.table id)).run.run w = _
  rw [index.follow, run_stateOf_bind]
  dsimp only
  rw [h, show (!GuestValue.nil.isNil) = false from rfl, Bool.and_false, if_neg Bool.false_ne_true]
  rfl

/-- Without a metamethod for it, a key of a table is written without further ado. -/
theorem run_assign_plain (h : (w.state s).metafield (.table id) "__newindex" = .nil)
    {key' : GuestValue} (hkey : key.toKey? = some key') :
    (assign calls chunk s origin (.table id) key value).run.run w
      = (.ok (), w.setState s ((w.state s).rawSet id key value)) := by
  show (assign.follow calls chunk s origin key value (1999 + 1) (.table id)).run.run w = _
  rw [assign.follow, run_stateOf_bind]
  dsimp only
  rw [h, show GuestValue.nil.isNil = true from rfl, Bool.true_or, if_pos rfl]
  dsimp only
  rw [hkey]
  rfl

end Execution

namespace Interpreter

variable {new : GuestState} {bound : List String} {i : Interpreter} {w : World}

/-- **A global is assigned**, and nothing else happens. -/
theorem run_setGlobal (h : GuestState.BindsOnly new bound (w.state i.state)) (name : String)
    (v : GuestValue) : (i.setGlobal name v).run w = (.ok (), w.setState i.state
      ((w.state i.state).rawSet (w.state i.state).globals (.ofString name) v)) := by
  have hassign : (Execution.assign (callsWithin callDepth) none i.state .unknown
      (.table (w.state i.state).globals) (.ofString name) v).run.run w = _ :=
    Execution.run_assign_plain (h.metafield "__newindex") rfl
  have hrun : (World.assignGlobal i.state name v).run w = (.ok (), w.setState i.state
      ((w.state i.state).rawSet (w.state i.state).globals (.ofString name) v)) := by
    rw [World.assignGlobal, StateT.run_bind, StateT.run_get, pure_bind]
    exact World.run_finish_ok hassign i.state
  rw [setGlobal, Transition.run_bind_eq hrun]
  rfl

/-- **A global is read**, and nothing else happens. -/
theorem run_getGlobal (h : GuestState.BindsOnly new bound (w.state i.state)) (name : String) :
    (i.getGlobal name).run w
      = (.ok ((w.state i.state).rawGet (w.state i.state).globals (.ofString name)), w) := by
  have hindex : (Execution.index (callsWithin callDepth) none i.state .unknown
      (.table (w.state i.state).globals) (.ofString name)).run.run w = _ :=
    Execution.run_index_plain (h.metafield "__index")
  have hrun : (World.readGlobal i.state name).run w
      = (.ok ((w.state i.state).rawGet (w.state i.state).globals (.ofString name)), w) := by
    rw [World.readGlobal, StateT.run_bind, StateT.run_get, pure_bind]
    exact World.run_finish_ok hindex i.state
  rw [getGlobal, Transition.run_bind_eq hrun]
  rfl

/-! ## Binding values of the host -/

/-- A value that crosses into a state binds no name there. -/
theorem bindsOnly_fromValue (hw : w.Regular) (hs : i.state < w.states.size) (c : Converter)
    (v : Value) (h : GuestState.BindsOnly new bound (w.state i.state)) :
    GuestState.BindsOnly new bound (((World.fromValue c i.state v).run w).2.state i.state) := by
  have hadditive : w.IsAdditive := fun codec hc custom g => .of_grows (hw.codecs codec hc custom g)
  have hadds : w.Adds ((World.fromValue c i.state v).run w).2 :=
    c.keeps_fromValueAt i.state World.takesIn_augments trivial c.maxDepth v w hadditive
  have hevolves := World.keeps_fromValue (World.admits_evolving w.states.size).serves hs c v w hw rfl
  exact h.grow (hadds.grows _) (hevolves.retains _).globals

theorem run_bind_error {c : Converter} {entry : String × Value} {rest : List (String × Value)}
    {e : ConvertError} {w w₁ : World}
    (hcross : (World.fromValue c i.state entry.2).run w = (.error e, w₁)) :
    (i.bind c (entry :: rest)).run w = (.error (.conversion e), w₁) := by
  rw [bind, Transition.run_bind_eq hcross]
  rfl

theorem run_bind_cons {c : Converter} {entry : String × Value} {rest : List (String × Value)}
    {v : GuestValue} {w w₁ w₂ : World}
    (hcross : (World.fromValue c i.state entry.2).run w = (.ok v, w₁))
    (hset : (i.setGlobal entry.1 v).run w₁ = (.ok (), w₂)) :
    (i.bind c (entry :: rest)).run w = (i.bind c rest).run w₂ := by
  rw [bind, Transition.run_bind_eq hcross]
  dsimp only
  rw [Transition.run_bind_eq hset]

/-- **However binding ends, no other names are bound**: not if a value does not cross after others
did, either. -/
theorem bindsOnly_bind (c : Converter) (globals : List (String × Value)) :
    ∀ {bound : List String} {w : World}, w.Regular → i.state < w.states.size →
      GuestState.BindsOnly new bound (w.state i.state) →
      GuestState.BindsOnly new (globals.map (·.1) ++ bound)
        (((i.bind c globals).run w).2.state i.state) := by
  induction globals with
  | nil => exact fun _ _ h => h
  | cons entry rest ih =>
    intro bound w hw hs h
    have hmore : bound ⊆ (entry :: rest).map (·.1) ++ bound := List.subset_append_right _ _
    have hcrossed := bindsOnly_fromValue hw hs c entry.2 h
    have hevolves :=
      World.keeps_fromValue (World.admits_evolving w.states.size).serves hs c entry.2 w hw rfl
    rcases hcross : (World.fromValue c i.state entry.2).run w with ⟨_ | v, w₁⟩
    · rw [hcross] at hcrossed
      rw [run_bind_error hcross]
      exact hcrossed.mono hmore
    · rw [hcross] at hcrossed hevolves
      dsimp only at hcrossed hevolves
      have hs₁ : i.state < w₁.states.size := hs.trans_eq hevolves.size.symm
      have hset := run_setGlobal hcrossed entry.1 v
      have hassigns := i.keeps_setGlobal (World.admits_evolving w₁.states.size).serves hs₁ entry.1 v w₁
        hevolves.regular rfl
      rw [hset] at hassigns
      have hbound := hcrossed.rawSet entry.1 v
      rw [← World.state_setState hs₁ ((w₁.state i.state).rawSet _ _ _)] at hbound
      rw [run_bind_cons hcross hset]
      refine (ih hassigns.regular (hs₁.trans_eq hassigns.size.symm) hbound).mono
        fun name hname => ?_
      rcases List.mem_append.1 hname with hname | hname
      · exact List.mem_append_left _ (List.mem_cons_of_mem _ hname)
      · rcases List.mem_cons.1 hname with rfl | hname
        · exact List.mem_append_left _ List.mem_cons_self
        · exact List.mem_append_right _ hname

end Interpreter

/-! ## New interpreters -/

/-- An interpreter as it is when it is new, if there is no script for new ones. -/
def Interpreter.plain (limits : ResourceLimits) (id state now : Nat) : Interpreter where
  id
  state
  baseline := .pictures (.limited limits) (.limited limits) (GuestState.limited limits).stringMeta
  lastUsed := now

namespace World

variable {limits : ResourceLimits} {u : World}

/-- **Making an interpreter** without a script for new ones adds a new state to the world, and
nothing else.  It fails only if there is too little memory for one, and leaves nothing behind then.
-/
theorem run_newInterpreter (hscript : limits.initScript = none) (id now : Nat) (u : World) :
    (newInterpreter limits id now).run u
      = if 0 < limits.memoryLimit ∧ limits.memoryLimit < emptyStateSize
        then (.error (.creation GuestFault.memory.message), u)
        else (.ok (.plain limits id u.states.size now), (u.newState (.limited limits)).2) := by
  let v := (u.newState (.limited limits)).2
  have hstate : v.state u.states.size = .limited limits := u.state_newState _
  have hshows : (v.state u.states.size).showsStrings = true := by
    rw [hstate]
    exact (GuestState.isStocked_limited limits).strings
  rw [newInterpreter]
  split
  · rename_i hmemory
    have hlimited : (newLimitedState limits).run u = (.error .memory, u) := by
      rw [newLimitedState, if_pos hmemory]
      rfl
    rw [Transition.run_bind_eq hlimited]
    rfl
  · rename_i hmemory
    have hlimited : (newLimitedState limits).run u = (.ok u.states.size, v) := by
      rw [newLimitedState, if_neg hmemory]
      rfl
    have hprepared : (prepare u.states.size limits.initScript).run v = (.ok (), v) := by
      rw [hscript]
      rfl
    have hpictured := run_takeBaseline u.states.size v
    rw [run_stringMetatable_of_shows hshows, hstate] at hpictured
    rw [Transition.run_bind_eq hlimited]
    dsimp only
    rw [Transition.run_bind_eq hprepared]
    dsimp only
    rw [Transition.run_bind_eq hpictured]
    rfl

theorem eq_of_newInterpreter (hscript : limits.initScript = none) {id now : Nat}
    {i : Interpreter} {w : World} (h : (newInterpreter limits id now).run u = (.ok i, w)) :
    i = .plain limits id u.states.size now ∧ w = (u.newState (.limited limits)).2 := by
  rw [run_newInterpreter hscript] at h
  split at h
  · cases h
  · obtain ⟨hi, hw⟩ := Prod.mk.inj h
    exact ⟨(Except.ok.inj hi).symm, hw.symm⟩

end World
end ScriptPool
