import ScriptPool.Proofs.Interpreter.Globals

/-!
# Where the value of a global goes

Assigning a global from outside is an assignment like any other, so the globals may have a metatable
that has something to say about it.  A name that has a value is written where it is, and so is any
name while there is no `__newindex`.  A new name goes on along the chain of those instead, and ends
up in another table or as an argument of a function of the guest, while the globals stay without it.

## What is here

* `GuestState.Accepts`, `GuestState.PassesOn` — which tables take a key, and where others send it.
* `GuestState.rawGet_rawSet`, `GuestState.rawGet_rawSet_other` — what raw writing does.
* `Execution.run_assign_accepted` — a table that takes a key is written.
* `Execution.Lands`, `Execution.lands_of_assign` — **where a successful assignment has gone** that
  was sent on.
* `Interpreter.run_setGlobal_of_becomes` — **what assigning a global does**, whatever was done with
  the interpreter before.
-/

set_option autoImplicit false

namespace ScriptPool

open Relation

/-! ## Keys of tables -/

/-- Only a string becomes a string when it is used as a key. -/
theorem GuestValue.eq_of_toKey?_string {v : GuestValue} {bytes : ByteArray}
    (h : v.toKey? = some (.string bytes)) : v = .string bytes := by
  cases v with
  | nil => cases h
  | float x =>
    rw [GuestValue.toKey?] at h
    split at h
    · cases h
    · split at h
      · split at h <;> cases h
      · cases h
  | _ => exact Option.some.inj h

namespace GuestState

variable {g : GuestState} {id : Nat} {key value other : GuestValue}

/-- An assignment to a key of a table writes the table: there is no `__newindex`, or the key has a
value. -/
def Accepts (g : GuestState) (key : GuestValue) (id : Nat) : Prop :=
  (g.metafield (.table id) "__newindex").isNil = true ∨ (g.rawGet id key).isNil = false

/-- An assignment to a key of the one value becomes one to that key of the other. -/
structure PassesOn (g : GuestState) (key v next : GuestValue) : Prop where
  refuses : ∀ id, v = .table id → ¬ g.Accepts key id
  field : g.metafield v "__newindex" = next
  some : next.isNil = false
  /-- A function would be called. -/
  data : ∀ f, next ≠ .function f

theorem rawGet_rawSet (hthere : id < g.tables.size) (name : String) :
    (g.rawSet id (.ofString name) value).rawGet id (.ofString name) = value := by
  have htable : (g.rawSet id (.ofString name) value).table id
      = (g.table id).set (.ofString name) value := table_modifyTable hthere
  rw [rawGet, htable, GuestTable.set_of_key rfl]
  exact GuestTable.find_store (beq_self_eq_true name.toUTF8)

/-- Writing a name in a table leaves everything else alone. -/
theorem rawGet_rawSet_other {name : String} {id' : Nat}
    (hne : id' ≠ id ∨ other ≠ .ofString name) :
    (g.rawSet id (.ofString name) value).rawGet id' other = g.rawGet id' other := by
  by_cases hid : id = id'
  · obtain rfl := hid
    have hother : other ≠ .ofString name := hne.resolve_left fun h => h rfl
    by_cases hthere : id < g.tables.size
    · have htable : (g.rawSet id (.ofString name) value).table id
          = (g.table id).set (.ofString name) value := table_modifyTable hthere
      rw [rawGet, htable, GuestTable.set_of_key rfl, rawGet, GuestTable.get, GuestTable.get]
      cases hkey : other.toKey? with
      | none => rfl
      | some found =>
        refine GuestTable.find_store_other (Bool.eq_false_iff.2 fun heq => hother ?_)
        obtain rfl : GuestValue.ofString name = found :=
          GuestValue.eq_of_rawEqual rfl (GuestValue.toKey?_of_toKey? hkey) heq
        exact GuestValue.eq_of_toKey?_string hkey
    · rw [rawGet, table_of_le (by rw [rawSet, size_modifyTable]; exact Nat.not_lt.1 hthere), rawGet,
        table_of_le (Nat.not_lt.1 hthere)]
  · rw [rawGet, rawSet, table_modifyTable_of_ne hid, rawGet]

end GuestState

/-! ## Assignments

An assignment goes along a chain of `__newindex`, of which each but the last leaves the key to the
next.  So there are only two things to know about a value on the chain: whether it takes the key,
and where it passes it on to. -/

namespace Execution

variable {calls : Calls} {chunk : Option String} {s id : Nat} {origin : Origin}
  {key key' value v : GuestValue} {w w' : World}

/-- A table that takes the key is written, and nothing else happens. -/
theorem run_follow_accepted (h : (w.state s).Accepts key id) (hkey : key.toKey? = some key')
    (left : Nat) :
    (assign.follow calls chunk s origin key value (left + 1) (.table id)).run.run w
      = (.ok (), w.setState s ((w.state s).rawSet id key value)) := by
  have haccepts : (((w.state s).metafield (.table id) "__newindex").isNil
      || !((w.state s).rawGet id key).isNil) = true := by
    rcases h with h | h <;> rw [h] <;> simp
  rw [assign.follow, run_stateOf_bind]
  dsimp only
  rw [if_pos haccepts]
  dsimp only
  rw [hkey]
  rfl

theorem run_assign_accepted (h : (w.state s).Accepts key id) (hkey : key.toKey? = some key') :
    (assign calls chunk s origin (.table id) key value).run.run w
      = (.ok (), w.setState s ((w.state s).rawSet id key value)) :=
  run_follow_accepted h hkey 1999

/-- What does not take the key leaves it to its `__newindex`. -/
theorem run_follow_refused (h : ∀ id, v = .table id → ¬ (w.state s).Accepts key id) (left : Nat) :
    (assign.follow calls chunk s origin key value (left + 1) v).run.run w
      = (match (w.state s).metafield v "__newindex" with
        | .nil => blame chunk "index" v origin
        | .function id => do
            let _ ← calls.guest none s id [v, key, value]
            pure ()
        | next => assign.follow calls chunk s origin key value left next : Execution Unit).run.run w
      := by
  rw [assign.follow, run_stateOf_bind]
  cases v with
  | table id =>
    have hrefuses : (((w.state s).metafield (.table id) "__newindex").isNil
        || !((w.state s).rawGet id key).isNil) = false := by
      have hnot := h id rfl
      rw [GuestState.Accepts, not_or, Bool.not_eq_true, Bool.not_eq_false] at hnot
      rw [hnot.1, hnot.2]
      rfl
    dsimp only
    rewrite [if_neg (Bool.eq_false_iff.1 hrefuses)]
    rfl
  | _ => rfl

/-- Where an assignment has gone that was successful: to a table that takes the key, or into a
function, at the end of the chain. -/
inductive Lands (calls : Calls) (s : Nat) (key value : GuestValue) (w : World) (v : GuestValue) :
    World → Prop where
  | table {id : Nat}
      (reached : ReflTransGen ((w.state s).PassesOn key) v (.table id))
      (accepts : (w.state s).Accepts key id) :
      Lands calls s key value w v (w.setState s ((w.state s).rawSet id key value))
  | function {holder : GuestValue} {f : Nat} {results : List GuestValue} {w' : World}
      (reached : ReflTransGen ((w.state s).PassesOn key) v holder)
      (refuses : ∀ id, holder = .table id → ¬ (w.state s).Accepts key id)
      (field : (w.state s).metafield holder "__newindex" = .function f)
      (called : (calls.guest none s f [holder, key, value]).run.run w = (.ok results, w')) :
      Lands calls s key value w v w'

theorem lands_of_follow (hkey : key.toKey? = some key') (left : Nat) : ∀ {v : GuestValue},
    (assign.follow calls chunk s origin key value left v).run.run w = (.ok (), w') →
      Lands calls s key value w v w' := by
  induction left with
  | zero => exact fun h => by cases h
  | succ left ih =>
    intro v h
    by_cases haccepts : ∃ id, v = .table id ∧ (w.state s).Accepts key id
    · obtain ⟨id, rfl, haccepts⟩ := haccepts
      rw [run_follow_accepted haccepts hkey] at h
      cases h
      exact .table .refl haccepts
    · have hrefuses : ∀ id, v = .table id → ¬ (w.state s).Accepts key id :=
        fun id hv ha => haccepts ⟨id, hv, ha⟩
      rw [run_follow_refused hrefuses] at h
      have hfurther : ∀ {next : GuestValue}, (w.state s).metafield v "__newindex" = next →
          next.isNil = false → (∀ f, next ≠ .function f) →
          Lands calls s key value w next w' → Lands calls s key value w v w' := by
        intro next hfield hsome hdata hlands
        have hpasses : (w.state s).PassesOn key v next := ⟨hrefuses, hfield, hsome, hdata⟩
        cases hlands with
        | table reached accepts => exact .table (.head hpasses reached) accepts
        | function reached refuses field called =>
          exact .function (.head hpasses reached) refuses field called
      cases hfield : (w.state s).metafield v "__newindex" with
      | nil =>
        rw [hfield] at h
        cases h
      | function f =>
        rw [hfield] at h
        dsimp only at h
        rcases hcall : (calls.guest none s f [v, key, value]).run.run w with ⟨thrown | results, w''⟩
        · rw [run_bind_error hcall] at h
          cases h
        · rw [run_bind_ok hcall] at h
          cases h
          exact .function .refl hrefuses hfield hcall
      | _ =>
        rw [hfield] at h
        exact hfurther hfield rfl nofun (ih h)

/-- **Where a successful assignment has gone.** -/
theorem lands_of_assign (hkey : key.toKey? = some key')
    (h : (assign calls chunk s origin v key value).run.run w = (.ok (), w')) :
    Lands calls s key value w v w' := lands_of_follow hkey metatableChain h

end Execution

/-! ## From outside

By the time a global is assigned, scripts may have given the globals a metatable.  Whether the name
is new to the globals and whether they have a `__newindex` then decides it all, and how it has come
to that does not matter. -/

namespace World

variable {w w' : World} {s : Nat}

/-- What has come to a good end threw nothing. -/
theorem run_of_finish {α : Type} {run : Execution α} {a : α}
    (h : (finish s run).run w = (.ok a, w')) : run.run.run w = (.ok a, w') := by
  rcases hrun : run.run.run w with ⟨thrown | b, v⟩
  · rw [finish, Transition.run_bind_eq hrun] at h
    dsimp only at h
    rcases hfault : (Execution.faultOf (callsWithin callDepth) s thrown).run.run v with ⟨_ | _, v'⟩
    · rw [Transition.run_bind_eq hfault] at h
      cases h
    · rw [Transition.run_bind_eq hfault] at h
      cases h
  · rw [run_finish_ok hrun] at h
    cases h
    rfl

end World

namespace Interpreter

variable {limits : ResourceLimits} {id now : Nat} {i : Interpreter} {u u' w w' : World}

/-- The state of a new interpreter is built around the same things as one without a script for new
ones. -/
theorem Made.retained {v : World} (h : i.Made limits u v w)
    (hcodecs : ∀ codec ∈ w.codecs, codec.Retains) :
    (GuestState.limited limits).Retains (w.state i.state) := by
  obtain ⟨u', hnew, hlt, hdone⟩ := h.exists_new
  rw [← World.state_newLimitedState hnew]
  exact (hdone _ (World.admits_retained i.state).hosts hcodecs).2.2 hlt

/-- The globals of an interpreter are there, whatever became of it. -/
theorem globals_lt_of_becomes {ended : List Nat}
    (hnew : (World.newInterpreter limits id now).run u = (.ok i, u')) (hdone : u'.Becomes ended w)
    (hcodecs : ∀ codec ∈ w.codecs, codec.Retains) :
    i.state < w.states.size ∧ (w.state i.state).globals < (w.state i.state).tables.size := by
  obtain ⟨v, hmade⟩ := World.made_of_newInterpreter hnew
  obtain ⟨hcodecs', hsize, hstate⟩ := hdone.retained i.state hcodecs
  have hretains := (hmade.retained hcodecs').trans (hstate hmade.fresh.1)
  refine ⟨Nat.lt_of_lt_of_le hmade.fresh.1 hsize, ?_⟩
  rw [hretains.globals]
  exact Nat.lt_of_lt_of_le
    ((GuestState.isStocked_limited limits).roots _ List.mem_cons_self) hretains.tables

theorem run_setGlobal_of_assign {name : String} {v : GuestValue}
    (h : (Execution.assign (callsWithin callDepth) none i.state .unknown
      (.table (w.state i.state).globals) (.ofString name) v).run.run w = (.ok (), w')) :
    (i.setGlobal name v).run w = (.ok (), w') := by
  have hrun : (World.assignGlobal i.state name v).run w = (.ok (), w') := by
    rw [World.assignGlobal, StateT.run_bind, StateT.run_get, pure_bind]
    exact World.run_finish_ok h i.state
  rw [setGlobal, Transition.run_bind_eq hrun]
  rfl

theorem assign_of_run_setGlobal {name : String} {v : GuestValue}
    (h : (i.setGlobal name v).run w = (.ok (), w')) :
    (Execution.assign (callsWithin callDepth) none i.state .unknown
      (.table (w.state i.state).globals) (.ofString name) v).run.run w = (.ok (), w') := by
  rcases hrun : (World.assignGlobal i.state name v).run w with ⟨f | ⟨⟩, w''⟩
  · rw [setGlobal, Transition.run_bind_eq hrun] at h
    cases h
  · rw [setGlobal, Transition.run_bind_eq hrun] at h
    cases h
    rw [World.assignGlobal, StateT.run_bind, StateT.run_get, pure_bind] at hrun
    exact World.run_of_finish hrun

/-- **What assigning a global does.**  Take an interpreter, whatever became of it and of the world
since it was made, as long as codecs leave states built around what they were.  If the name has a
value, or if the metatable of the globals has no `__newindex`, the name is given the value and
nothing else happens.  Otherwise the globals do not get it: an assignment that succeeds has gone
along the chain of `__newindex`, and either another table was written or a function of the guest was
called with the value. -/
theorem run_setGlobal_of_becomes {ended : List Nat}
    (hnew : (World.newInterpreter limits id now).run u = (.ok i, u')) (hdone : u'.Becomes ended w)
    (hcodecs : ∀ codec ∈ w.codecs, codec.Retains) (name : String) (v : GuestValue) :
    let g := w.state i.state
    let key := GuestValue.ofString name
    (g.Accepts key g.globals → ∃ w', (i.setGlobal name v).run w = (.ok (), w')
      ∧ w' = w.setState i.state (g.rawSet g.globals key v)
      ∧ (w'.state i.state).rawGet g.globals key = v
      ∧ ∀ (table : Nat) (other : GuestValue), table ≠ g.globals ∨ other ≠ key →
        (w'.state i.state).rawGet table other = g.rawGet table other)
    ∧ (¬ g.Accepts key g.globals → ∀ w', (i.setGlobal name v).run w = (.ok (), w') →
      (∃ table, ReflTransGen (g.PassesOn key) (.table g.globals) (.table table)
        ∧ table ≠ g.globals
        ∧ w' = w.setState i.state (g.rawSet table key v)
        ∧ (w'.state i.state).rawGet g.globals key = .nil)
      ∨ ∃ holder f results, ReflTransGen (g.PassesOn key) (.table g.globals) holder
        ∧ g.metafield holder "__newindex" = .function f
        ∧ ((callsWithin callDepth).guest none i.state f [holder, key, v]).run.run w
          = (.ok results, w')) := by
  intro g key
  obtain ⟨hs, hglobals⟩ := globals_lt_of_becomes hnew hdone hcodecs
  have hwritten : ∀ table, (w.setState i.state (g.rawSet table key v)).state i.state
      = g.rawSet table key v := fun table => World.state_setState hs _
  refine ⟨fun haccepts => ⟨_, ?_, rfl, ?_, fun table other hne => ?_⟩, fun hrefuses w' hset => ?_⟩
  · exact run_setGlobal_of_assign (Execution.run_assign_accepted haccepts rfl)
  · rw [hwritten]
    exact GuestState.rawGet_rawSet hglobals name
  · rw [hwritten]
    exact GuestState.rawGet_rawSet_other hne
  · have hlands : Execution.Lands _ i.state key v w (.table g.globals) w' :=
      Execution.lands_of_assign rfl (assign_of_run_setGlobal hset)
    cases hlands with
    | @table table reached accepts =>
      have hne : table ≠ g.globals := fun heq => hrefuses (heq ▸ accepts)
      refine .inl ⟨table, reached, hne, rfl, ?_⟩
      rw [hwritten, GuestState.rawGet_rawSet_other (.inl hne.symm)]
      exact GuestValue.eq_nil_of_isNil (Bool.not_eq_false _ ▸ (not_or.1 hrefuses).2)
    | function reached refuses field called =>
      exact .inr ⟨_, _, _, reached, field, called⟩

/-- A script that has new globals put into another table. -/
def diverting : Script :=
  [.setMetatable (.get [.string "_G".toUTF8])
    (.table [(.literal (.string "__newindex".toUTF8), .table [])])]

/-- Can a name that is new then be given a value? -/
def newDiverts : Bool :=
  match (World.newInterpreter {} 0 0).run {} with
  | (.ok i, u') =>
      let (_, w) := (i.run diverting).run u'
      let g := w.state i.state
      w.codecs.isEmpty && (g.rawGet g.globals (.ofString "x")).isNil
        && ((i.setGlobal "x" (.integer 1)).run w).1.isOk
        && match g.metafield (.table g.globals) "__newindex" with
          | .table table => (g.metafield (.table table) "__newindex").isNil
          | _ => false
  | _ => false

/-- There is a run in which it can. -/
theorem exists_diverted : ∃ i u' w w' table,
    (World.newInterpreter {} 0 0).run {} = (.ok i, u') ∧ u'.Becomes [] w ∧ w.codecs = #[]
      ∧ (i.setGlobal "x" (.integer 1)).run w = (.ok (), w')
      ∧ ((w.state i.state).rawGet (w.state i.state).globals (.ofString "x")).isNil = true
      ∧ (w.state i.state).metafield (.table (w.state i.state).globals) "__newindex" = .table table
      ∧ ((w.state i.state).metafield (.table table) "__newindex").isNil = true := by
  have hdiverts : newDiverts = true := by decide +kernel
  unfold newDiverts at hdiverts
  rcases hnew : (World.newInterpreter {} 0 0).run {} with ⟨_ | i, u'⟩
  · rw [hnew] at hdiverts
    cases hdiverts
  · rw [hnew] at hdiverts
    dsimp only at hdiverts
    rcases hrun : (i.run diverting).run u' with ⟨r, w⟩
    rw [hrun, Bool.and_eq_true, Bool.and_eq_true, Bool.and_eq_true] at hdiverts
    obtain ⟨⟨⟨hcodecs, hnil⟩, hok⟩, hend⟩ := hdiverts
    have hdone : u'.Becomes [] w := by
      have hstep := World.Happens.run (w := u') i diverting
      rw [hrun] at hstep
      exact .step .refl hstep
    rcases hset : (i.setGlobal "x" (.integer 1)).run w with ⟨_ | ⟨⟩, w'⟩
    · rw [hset] at hok
      cases hok
    · split at hend
      · rename_i table htable
        exact ⟨i, u', w, w', table, rfl, hdone, Array.isEmpty_iff.1 hcodecs, hset, hnil, htable,
          hend⟩
      · cases hend

/-- A script gives the globals a metatable.  Assigning a new global succeeds after that, and the
globals do not have it. -/
theorem run_setGlobal_of_becomes_diverted : ∃ i u' w w' table,
    (World.newInterpreter {} 0 0).run {} = (.ok i, u') ∧ u'.Becomes [] w
      ∧ (∀ codec ∈ w.codecs, codec.Retains)
      ∧ (i.setGlobal "x" (.integer 1)).run w = (.ok (), w')
      ∧ table ≠ (w.state i.state).globals
      ∧ w' = w.setState i.state ((w.state i.state).rawSet table (.ofString "x") (.integer 1))
      ∧ (w'.state i.state).rawGet (w.state i.state).globals (.ofString "x") = .nil := by
  obtain ⟨i, u', w, w', table, hnew, hdone, hnone, hset, hnil, htable, hend⟩ := exists_diverted
  have hcodecs : ∀ codec ∈ w.codecs, codec.Retains := fun codec hcodec => by
    rw [hnone] at hcodec
    exact absurd hcodec (Array.not_mem_empty _)
  have hrefuses : ¬ (w.state i.state).Accepts (.ofString "x") (w.state i.state).globals := by
    rw [GuestState.Accepts, htable, hnil]
    exact fun h => h.elim nofun nofun
  -- the chain has one link
  have hreached : ∀ {v : GuestValue},
      ReflTransGen ((w.state i.state).PassesOn (.ofString "x"))
        (.table (w.state i.state).globals) v →
      v = .table (w.state i.state).globals ∨ v = .table table := by
    intro v h
    induction h with
    | refl => exact .inl rfl
    | tail _ hpasses ih =>
      rcases ih with rfl | rfl
      · exact .inr (hpasses.field.symm.trans htable)
      · exact absurd (.inl hend) (hpasses.refuses table rfl)
  rcases (run_setGlobal_of_becomes hnew hdone hcodecs "x" (.integer 1)).2 hrefuses w' hset with
    ⟨other, hother, hne, hw, hread⟩ | ⟨holder, f, results, hholder, hfield, hcall⟩
  · exact ⟨i, u', w, w', other, hnew, hdone, hcodecs, hset, hne, hw, hread⟩
  · rcases hreached hholder with rfl | rfl
    · rw [htable] at hfield
      cases hfield
    · rw [hfield] at hend
      cases hend

end Interpreter
end ScriptPool
