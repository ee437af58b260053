import ScriptPool.Proofs.Convert.RoundTrip
import ScriptPool.Proofs.Interpreter.Running

/-!
# New interpreters

A new interpreter is a guest state with the library in it, in which the script for new interpreters
was run and then pictures were taken.  Nothing has been converted by then: there are no functions of
the host to call, so nobody has asked for the metatable that marks empty arrays (`Pristine`).

## What is here

* `pristine_withLibraries`, `keep_pristine` — a state is pristine at first, and scripts leave it so.
* `Baseline.mem_reachable`, `Baseline.pictures`, `Baseline.nodup_pictures` — which tables are
  pictured, and that none is pictured twice.
* `Interpreter.Made`, `World.made_of_newInterpreter` — how an interpreter came about.
* `Interpreter.Made.run_stringMetatable`, `Interpreter.Made.fresh` — what its baseline is, and that
  values can be put into it.
-/

set_option autoImplicit false

namespace ScriptPool

open Transition

/-! ## Pristine states

Scripts call functions of the guest, and these call others.  If none of them belongs to the host at
first, none of them can put one there, so the induction is on the calls that are nested. -/

/-- Does a function belong to the host? -/
def Closure.isTrampoline : Closure → Bool
  | .trampoline _ _ => true
  | _ => false

namespace GuestState

/-- Nothing has been converted yet, and scripts have no means to convert anything. -/
structure Pristine (g : GuestState) : Prop where
  marker : g.arrayMarker = none
  functions : g.functions.all (fun f => !f.isTrampoline) = true

theorem pristine_withLibraries (level : SecurityLevel) : (withLibraries level).Pristine := by
  cases level <;> exact ⟨by decide +kernel, by decide +kernel⟩

variable {g g' : GuestState}

theorem Pristine.of_change (h : g.Pristine) (hg : g.Change g') : g'.Pristine := by
  cases hg with
  | newFunction f guest =>
    refine ⟨h.marker, ?_⟩
    show (g.functions.push f).all (fun f => !f.isTrampoline) = true
    rw [Array.all_push, h.functions, Bool.true_and]
    cases f with
    | trampoline target c => exact absurd rfl (guest target c)
    | _ => rfl
  | _ => exact ⟨h.marker, h.functions⟩

theorem Pristine.of_changes (h : g.Pristine) (hg : g.Changes g') : g'.Pristine := by
  induction hg with
  | refl => exact h
  | tail _ hc ih => exact ih.of_change hc

theorem Pristine.ne_trampoline (h : g.Pristine) (id : Nat) (target : FunctionValue) (c : Converter) :
    g.functions[id]? ≠ some (.trampoline target c) := by
  intro hf
  have hall := Array.all_eq_true_iff_forall_mem.1 h.functions _ (Array.mem_of_getElem? hf)
  cases hall

theorem Pristine.hasMarker (h : g.Pristine) : g.HasMarker := fun id hid => by
  rw [h.marker] at hid
  cases hid

theorem Pristine.marksArrays (h : g.Pristine) : g.MarksArrays := fun id hid => by
  rw [h.marker] at hid
  cases hid

end GuestState

/-- A state that was pristine still is. -/
def StaysPristine (s : Nat) (w w' : World) : Prop := (w.state s).Pristine → (w'.state s).Pristine

instance (s : Nat) : IsPreorder World (StaysPristine s) where
  refl _ := id
  trans _ _ _ h h' := h' ∘ h

theorem permits_pristine (s : Nat) : Permits (StaysPristine s) s := by
  refine ⟨fun w g hg hw => ?_⟩
  by_cases hs : s < w.states.size
  · rw [World.state_setState hs]
    exact hw.of_changes hg
  · rwa [World.setState_of_le (Nat.not_lt.1 hs)]

/-- **Scripts leave a pristine state so**: whatever they call is a function of the guest. -/
theorem keep_pristine (s depth : Nat) : (callsWithin depth).Keep (StaysPristine s) s := by
  induction depth with
  | zero => exact fun _ _ _ => keeps_throw _
  | succ depth ih =>
    exact Execution.keeps_applyFunction (permits_pristine s).evaluates ih fun w id target c _ hf hw =>
      absurd hf (hw.ne_trampoline id target c)

/-! ## Pictures

Tables are found by one step from the globals, in the order of the entries.  Two names may refer to
the same table, which is why those seen before are left out. -/

namespace Baseline

variable {g : GuestState} {id : Nat}

theorem newTables_table {seen : List Nat} {key : GuestValue}
    {rest : List (GuestValue × GuestValue)} :
    newTables seen ((key, .table id) :: rest)
      = if seen.contains id then newTables seen rest else id :: newTables (id :: seen) rest := rfl

/-- A value that refers to no table adds none. -/
theorem newTables_other {seen : List Nat} {entry : GuestValue × GuestValue}
    {rest : List (GuestValue × GuestValue)} (h : ∀ id, entry.2 ≠ .table id) :
    newTables seen (entry :: rest) = newTables seen rest := by
  obtain ⟨key, value⟩ := entry
  cases value with
  | table id => exact absurd rfl (h id)
  | _ => rfl

/-- **The tables found are those that were not seen before.** -/
theorem mem_newTables (entries : List (GuestValue × GuestValue)) : ∀ seen : List Nat,
    id ∈ newTables seen entries ↔ id ∉ seen ∧ ∃ key, (key, .table id) ∈ entries := by
  induction entries with
  | nil =>
    exact fun _ => ⟨fun h => absurd h List.not_mem_nil, fun ⟨_, _, h⟩ => absurd h List.not_mem_nil⟩
  | cons entry rest ih =>
    intro seen
    by_cases hentry : ∃ other, entry.2 = .table other
    · obtain ⟨key, value⟩ := entry
      obtain ⟨other, rfl⟩ : ∃ other, value = .table other := hentry
      rw [newTables_table]
      by_cases hid : id = other
      · obtain rfl := hid
        split
        · rename_i hseen
          have hmem := List.contains_iff_mem.1 hseen
          rw [ih seen]
          exact ⟨fun h => absurd hmem h.1, fun h => absurd hmem h.1⟩
        · rename_i hseen
          have hmem := fun h => hseen (List.contains_iff_mem.2 h)
          exact ⟨fun _ => ⟨hmem, key, List.mem_cons_self⟩, fun _ => List.mem_cons_self⟩
      · have hrest : (∃ key', (key', GuestValue.table id) ∈ (key, .table other) :: rest)
            ↔ ∃ key', (key', GuestValue.table id) ∈ rest := exists_congr fun key' => by
          rw [List.mem_cons, or_iff_right fun heq =>
            hid (GuestValue.table.inj (congrArg Prod.snd heq))]
        rw [hrest]
        split
        · exact ih seen
        · rw [List.mem_cons, or_iff_right hid, ih (other :: seen), List.mem_cons, not_or]
          exact and_congr_left fun _ => and_iff_right hid
    · rw [newTables_other fun other heq => hentry ⟨other, heq⟩, ih seen]
      refine and_congr_right fun _ => exists_congr fun key => ?_
      rw [List.mem_cons, or_iff_right fun heq => hentry ⟨id, (congrArg Prod.snd heq).symm⟩]

/-- Each is found once. -/
theorem nodup_newTables (entries : List (GuestValue × GuestValue)) : ∀ seen : List Nat,
    (newTables seen entries).Nodup := by
  induction entries with
  | nil => exact fun _ => List.nodup_nil
  | cons entry rest ih =>
    intro seen
    obtain ⟨key, value⟩ := entry
    cases value with
    | table id =>
      rw [newTables_table]
      split
      · exact ih seen
      · refine List.nodup_cons.2 ⟨fun hmem => ?_, ih _⟩
        exact ((mem_newTables rest _).1 hmem).1 List.mem_cons_self
    | _ => exact ih seen

/-- The globals are reachable, and what they refer to. -/
theorem mem_reachable : id ∈ reachable g
    ↔ id = g.globals ∨ ∃ key, (key, .table id) ∈ (g.table g.globals).entries := by
  rw [reachable, List.mem_cons, mem_newTables, List.mem_singleton]
  constructor
  · exact fun h => h.imp_right And.right
  · intro h
    by_cases hid : id = g.globals
    · exact .inl hid
    · exact .inr ⟨hid, h.resolve_left hid⟩

theorem nodup_reachable (g : GuestState) : (reachable g).Nodup := by
  refine List.nodup_cons.2 ⟨fun hmem => ?_, nodup_newTables _ _⟩
  exact ((mem_newTables _ _).1 hmem).1 List.mem_cons_self

/-! ## Which tables are pictured -/

/-- The metatable of strings, if there is one and the globals do not refer to it anyway. -/
def apart (g : GuestState) (strings : Option Nat) : List Nat :=
  strings.toList.filter fun id => !(reachable g).contains id

theorem apart_of_contains {strings : Nat} (h : (reachable g).contains strings = true) :
    apart g (some strings) = [] := by
  rw [apart, Option.toList_some, List.filter_cons_of_neg (by rw [h]; decide), List.filter_nil]

theorem apart_of_not_contains {strings : Nat} (h : (reachable g).contains strings = false) :
    apart g (some strings) = [strings] := by
  rw [apart, Option.toList_some, List.filter_cons_of_pos (by rw [h]; decide), List.filter_nil]

/-- Pictures of the globals, of what they refer to, and of the metatable of strings, which is asked
for in between. -/
def pictures (g g' : GuestState) (strings : Option Nat) : Baseline :=
  (reachable g).map (TableImage.take g) ++ (apart g strings).map (TableImage.take g')

theorem tables_pictures (g g' : GuestState) (strings : Option Nat) :
    (pictures g g' strings).map (·.table) = reachable g ++ apart g strings := by
  have htake : ∀ (g : GuestState) (ids : List Nat),
      (ids.map (TableImage.take g)).map (·.table) = ids := fun g ids => by
    rw [List.map_map]
    exact List.map_id ids
  rw [pictures, List.map_append, htake, htake]

/-- **No table is pictured twice.** -/
theorem nodup_pictures (g g' : GuestState) (strings : Option Nat) :
    ((pictures g g' strings).map (·.table)).Nodup := by
  have hapart : (apart g strings).Nodup := by
    refine List.Nodup.sublist List.filter_sublist ?_
    cases strings with
    | none => exact List.nodup_nil
    | some id => exact List.nodup_singleton id
  rw [tables_pictures]
  refine List.nodup_append.2 ⟨nodup_reachable g, hapart, fun a ha b hb heq => ?_⟩
  have hnot := (List.mem_filter.1 hb).2
  rw [← heq, List.contains_iff_mem.2 ha] at hnot
  cases hnot

/-- A picture shows a table as it was in the one state or the other. -/
theorem eq_take_of_mem {g' : GuestState} {strings : Option Nat} {image : TableImage}
    (h : image ∈ pictures g g' strings) :
    image = .take g image.table ∨ image = .take g' image.table := by
  rcases List.mem_append.1 h with h | h
  · obtain ⟨id, -, rfl⟩ := List.mem_map.1 h
    exact .inl rfl
  · obtain ⟨id, -, rfl⟩ := List.mem_map.1 h
    exact .inr rfl

end Baseline

namespace World

open Baseline

/-- What is pictured, and when. -/
theorem run_takeBaseline (s : Nat) (w : World) :
    (takeBaseline s).run w
      = (((stringMetatable s).run w).1.map
          (pictures (w.state s) (((stringMetatable s).run w).2.state s)),
        ((stringMetatable s).run w).2) := by
  let images := (reachable (w.state s)).map (TableImage.take (w.state s))
  rw [takeBaseline, StateT.run_bind, StateT.run_get, pure_bind, StateT.run_bind]
  rcases (stringMetatable s).run w with ⟨_ | _ | strings, w'⟩
  · rfl
  · exact congrArg (fun b => (Except.ok b, w')) (List.append_nil images).symm
  · show (if (reachable (w.state s)).contains strings then pure (.ok images)
      else (get >>= fun u => pure (.ok (images ++ [TableImage.take (u.state s) strings])) :
        Transition (Except GuestFault Baseline))).run w'
      = (Except.ok (images ++ (apart (w.state s) (some strings)).map _), w')
    split
    · rename_i h
      rw [apart_of_contains h, List.map_nil, List.append_nil]
      rfl
    · rename_i h
      rw [apart_of_not_contains (Bool.eq_false_iff.2 h)]
      rfl

/-! ## How interpreters are made

Three worlds are told apart: the one that an interpreter is made in, one in which its state is
prepared, and one in which pictures have been taken.  Later results about new interpreters start
from these three and not from the program. -/

/-- What succeeds has not failed on the way. -/
theorem exists_ok_of_bind {ε ε' α β : Type} {t : Transition (Except ε α)}
    {next : Except ε α → Transition (Except ε' β)} {u w : World} {b : β}
    (hnext : ∀ e v, ∃ e', ((next (.error e)).run v).1 = .error e')
    (h : (t >>= next).run u = (.ok b, w)) :
    ∃ a v, t.run u = (.ok a, v) ∧ (next (.ok a)).run v = (.ok b, w) := by
  rw [StateT.run_bind] at h
  rcases ht : t.run u with ⟨e | a, v⟩
  · obtain ⟨e', he⟩ := hnext e v
    rw [ht] at h
    have hb : ((next (.error e)).run v).1 = .ok b := congrArg Prod.fst h
    rw [he] at hb
    cases hb
  · rw [ht] at h
    exact ⟨a, v, rfl, h⟩

/-- A new state is at the end, with the library in it and nothing else. -/
theorem run_newLimitedState {limits : ResourceLimits} {u u' : World} {s : Nat}
    (h : (newLimitedState limits).run u = (.ok s, u')) :
    s = u.states.size ∧ ∃ g : GuestState, g.Pristine ∧ u' = (u.newState g).2 := by
  rw [newLimitedState] at h
  split at h
  · cases h
  · obtain ⟨hs, hu⟩ := Prod.mk.inj h
    have hpristine := GuestState.pristine_withLibraries limits.security
    refine ⟨(Except.ok.inj hs).symm, _, ?_, hu.symm⟩
    exact ⟨hpristine.marker, hpristine.functions⟩

end World

/-- An interpreter was made: its state was prepared, which left the second world, and then pictures
were taken of it, which left the third one. -/
structure Interpreter.Made (i : Interpreter) (limits : ResourceLimits) (u v w : World) : Prop where
  prepared : ∃ u', (World.newLimitedState limits).run u = (.ok i.state, u')
    ∧ (World.prepare i.state limits.initScript).run u' = (.ok (), v)
  pictured : (World.takeBaseline i.state).run v = (.ok i.baseline, w)

theorem World.made_of_newInterpreter {limits : ResourceLimits} {id now : Nat} {i : Interpreter}
    {u w : World} (h : (World.newInterpreter limits id now).run u = (.ok i, w)) :
    ∃ v, i.Made limits u v w := by
  obtain ⟨s, u', hnew, h⟩ := exists_ok_of_bind (fun f w => ⟨_, rfl⟩) h
  obtain ⟨⟨⟩, v, hprepare, h⟩ := exists_ok_of_bind (fun f w => ⟨_, rfl⟩) h
  obtain ⟨baseline, v', hpictured, h⟩ := exists_ok_of_bind (fun f w => ⟨_, rfl⟩) h
  cases h
  exact ⟨v, ⟨u', hnew, hprepare⟩, hpictured⟩

/-! ## What a new interpreter is like -/

namespace Interpreter.Made

variable {i : Interpreter} {limits : ResourceLimits} {u v w : World}

theorem run_stringMetatable (h : i.Made limits u v w) : ∃ strings,
    (World.stringMetatable i.state).run v = (.ok strings, w)
      ∧ i.baseline = Baseline.pictures (v.state i.state) (w.state i.state) strings := by
  have hpictured := h.pictured
  rw [World.run_takeBaseline] at hpictured
  obtain ⟨hbaseline, hw⟩ := Prod.mk.inj hpictured
  cases hstrings : ((World.stringMetatable i.state).run v).1 with
  | error f =>
    rw [hstrings] at hbaseline
    cases hbaseline
  | ok strings =>
    rw [hstrings, hw] at hbaseline
    exact ⟨strings, Prod.ext hstrings hw, (Except.ok.inj hbaseline).symm⟩

/-- Asking for the metatable of strings is all that happens while pictures are taken. -/
theorem keeps {R : World → World → Prop} (h : i.Made limits u v w)
    (hR : Transition.Keeps R (World.stringMetatable i.state)) : R v w := by
  obtain ⟨strings, hrun, -⟩ := h.run_stringMetatable
  have hkeeps := hR v
  rwa [hrun] at hkeeps

theorem leadsTo (h : i.Made limits u v w) : v.LeadsTo w :=
  h.keeps (World.keeps_stringMetatable (World.keep_callDepth World.admits_leadsTo.serves trivial))

/-- **The state of a new interpreter** is there, and nothing has been converted in it yet. -/
theorem fresh (h : i.Made limits u v w) :
    i.state < w.states.size ∧ (w.state i.state).Pristine := by
  obtain ⟨u', hnew, hprepare⟩ := h.prepared
  obtain ⟨hstate, g, hg, rfl⟩ := World.run_newLimitedState hnew
  have hlt : i.state < (u.newState g).2.states.size := by
    rw [hstate, World.size_newState]
    exact Nat.lt_succ_self _
  have hpristine : ((u.newState g).2.state i.state).Pristine := by
    rwa [hstate, World.state_newState]
  have hprepared {R : World → World → Prop} [IsPreorder World R] (hR : Permits R i.state)
      (hc : (callsWithin callDepth).Keep R i.state) : R (u.newState g).2 v := by
    have hkeeps := World.keeps_prepare (World.keeps_runBudgeted hR hc) limits.initScript
      (u.newState g).2
    rwa [hprepare] at hkeeps
  have hleads := hprepared (World.admits_leadsTo.evaluate _ trivial)
    (World.keep_callDepth World.admits_leadsTo.serves trivial)
  have hstays := hprepared (permits_pristine _) (keep_pristine _ _)
  refine ⟨Nat.lt_of_lt_of_le hlt (Nat.le_trans hleads.states h.leadsTo.states), ?_⟩
  exact h.keeps (World.keeps_stringMetatable (keep_pristine _ _)) (hstays hpristine)

/-- **All that was done to the new state** since it was made are runs and reading it. -/
theorem exists_new (h : i.Made limits u v w) : ∃ u',
    (World.newLimitedState limits).run u = (.ok i.state, u') ∧ i.state < u'.states.size
      ∧ ∀ (R : World → World → Prop) [IsPreorder World R], Hosts Everywhere R → R u' w := by
  obtain ⟨u', hnew, hprepare⟩ := h.prepared
  have hlt : i.state < u'.states.size := by
    obtain ⟨hstate, g, -, rfl⟩ := World.run_newLimitedState hnew
    rw [hstate, World.size_newState]
    exact Nat.lt_succ_self _
  refine ⟨u', hnew, hlt, fun R _ hR => ?_⟩
  have hprepared : R u' v := by
    have hkeeps := World.keeps_prepare (hR.budgeted i.state trivial) limits.initScript u'
    rwa [hprepare] at hkeeps
  exact trans_of R hprepared
    (h.keeps (World.keeps_stringMetatable (World.keep_callDepth hR.toServes trivial)))

/-- Values can be put into a new interpreter. -/
theorem ready (h : i.Made limits u v w) : w.Ready i.state :=
  ⟨h.fresh.1, h.fresh.2.marksArrays⟩

end Interpreter.Made

end ScriptPool
