import ScriptPool.Guest.Machine
import ScriptPool.Proofs.Guest.Metering
import ScriptPool.Proofs.Keeps

/-!
# What scripts do to the state they run in

A script changes its guest state in a handful of ways: time passes and the budget is charged, tables
are made and written to, functions and coroutines are made.  Nothing else happens except by calling
a function.  So whatever relation between worlds allows for these changes, and for calls, allows for
running scripts.

## What is here

* `GuestState.Change` — one change that evaluation makes, whatever it does to the account.
* `Permits`, `Evaluates` — a relation between worlds that allows for any number of them, or for
  those that keep the account as they should.
* `keeps_index`, `keeps_assign`, `keeps_callValue`, `keeps_builtin`, `keeps_routine` — the
  operations that scripts are made of.
* `keeps_libraryAction` — whatever else a function of the library does.
* `keeps_aside`, `keeps_resume`, `keeps_finalizeAll` — what is executed on the side: coroutines and
  finalizers.
* `keeps_eval`, `keeps_exec`, `keeps_execAll` — **evaluation**, by recursion on the script.
* `keeps_applyFunction` — calling a function, if it is not one of the host.
-/

set_option autoImplicit false

namespace ScriptPool

open Relation

/-! ## Changes

These are all the ways in which evaluation touches a state.  The conditions on a relation are one
for each of them, and whatever is proved from here on about scripts goes back to them. -/

namespace GuestState

/-- A change that evaluation makes. -/
inductive Change (g : GuestState) : GuestState → Prop where
  | account (budget : Budget) (hook : Hook) (pending uncharged clock : Nat) :
      g.Change { g with budget, hook, pending, uncharged, clock }
  | modifyTable (id : Nat) (f : GuestTable → GuestTable) : g.Change (g.modifyTable id f)
  | newTable (t : GuestTable) : g.Change (g.newTable t).2
  | newFunction (f : Closure) (guest : ∀ target c, f ≠ .trampoline target c) :
      g.Change (g.newFunction f).2
  | newThread (body : Nat) : g.Change (g.newThread body).2
  | setStatus (thread : Nat) (status : CoroutineStatus) : g.Change (g.setStatus thread status)

/-- Charges are counted only where there are any. -/
theorem charging_of_chargesToExhaustion {g : GuestState} {times : Nat}
    (h : g.chargesToExhaustion? = some times) : g.hook = .charging := by
  refine Decidable.byContradiction fun hquiet => ?_
  rw [chargesToExhaustion?, bne_iff_ne.2 hquiet] at h
  cases h

/-- Changes one after the other. -/
abbrev Changes : GuestState → GuestState → Prop := ReflTransGen Change

theorem Move.change {g g' : GuestState} (h : g.Move g') : g.Change g' := by
  cases h with
  | charge => exact .account _ g.hook g.pending g.uncharged _
  | wait _ pending h => exact .account g.budget g.hook pending g.uncharged g.clock
  | skip _ n => exact .account g.budget g.hook g.pending _ _
  | modifyTable id f => exact .modifyTable id f
  | newTable t => exact .newTable t
  | newFunction f guest => exact .newFunction f guest
  | newThread body => exact .newThread body
  | setStatus thread status => exact .setStatus thread status

theorem Moves.changes {g g' : GuestState} (h : g.Moves g') : g.Changes g' :=
  ReflTransGen.mono (fun _ _ => Move.change) _ _ h

end GuestState

/-- A relation between worlds allows for what evaluation does to a guest state. -/
structure Permits (R : World → World → Prop) (s : Nat) : Prop where
  change : ∀ (w : World) (g : GuestState), (w.state s).Changes g → R w (w.setState s g)

/-- A relation between worlds allows for what evaluation does to a guest state, with the account as
it should be.  What is done on the side counts as a whole, from before the hook was changed for it
until it is back. -/
structure Evaluates (R : World → World → Prop) (s : Nat) : Prop where
  move : ∀ (w : World) (g : GuestState), (w.state s).Moves g → R w (w.setState s g)
  aside : ∀ (kind : Aside) (w v : World), R (w.setState s ((w.state s).stepAside kind)) v →
    R w (v.setState s ((v.state s).setHook (w.state s).hook))

theorem Permits.evaluates {R : World → World → Prop} [IsPreorder World R] {s : Nat}
    (h : Permits R s) : Evaluates R s where
  move w g hg := h.change w g hg.changes
  aside kind w v hv := by
    have hhook : ∀ (w : World) (hook : Hook), R w (w.setState s ((w.state s).setHook hook)) :=
      fun w hook => h.change w _ (.single (.account _ hook _ _ _))
    exact trans_of R (hhook w _) (trans_of R hv (hhook v _))

/-- Calls of functions of a guest state leave a world that is related to the one before. -/
def Calls.Keep (calls : Calls) (R : World → World → Prop) (s : Nat) : Prop :=
  ∀ chunk f args, Keeps R (calls.guest chunk s f args)

namespace Execution

variable {R : World → World → Prop} {s : Nat} {α : Type}

/-! ## Steps -/

theorem keeps_onState (h : Evaluates R s) {f : GuestState → α × GuestState}
    (hf : ∀ g : GuestState, g.Moves (f g).2) : Keeps R (onState s f) :=
  fun w => h.move w _ (hf _)

theorem keeps_newTable (h : Evaluates R s) (t : GuestTable) : Keeps R (newTable s t) :=
  keeps_onState h fun _ => .single (.newTable t)

variable [IsPreorder World R]

theorem run_stateOf_bind {α : Type} (f : GuestState → Execution α) (w : World) :
    (stateOf s >>= f).run.run w = (f (w.state s)).run.run w := rfl

theorem keeps_stateOf : Keeps R (stateOf s) := fun w => refl_of R w

theorem keeps_pay (h : Evaluates R s) (n : Nat) : Keeps R (pay s n) := by
  rw [pay]
  refine (keeps_onState h fun g => g.moves_advance n).bind fun r => ?_
  cases r with
  | none => exact keeps_pure ()
  | some cause => exact keeps_throw _

theorem keeps_payForever (h : Evaluates R s) : Keeps R (payForever s) := by
  intro w
  rw [payForever, run_stateOf_bind]
  split
  · exact refl_of R w
  · rename_i times htimes
    have hcharged : (w.state s).Moves ((w.state s).chargeTimes times).2 :=
      (GuestState.moves_chargeTimes times (GuestState.charging_of_chargesToExhaustion htimes)).1
    have hall : ∀ r, Keeps R (match r with
        | none => raise .endless
        | some (cause : Exhaustion) => raise (.runtime cause.message) : Execution Unit) := by
      intro r
      cases r with
      | none => exact keeps_throw _
      | some cause => exact keeps_throw _
    exact trans_of R (h.move w _ hcharged) (hall _ _)

theorem keeps_wrapTimes (h : Evaluates R s) (n : Nat) : ∀ v, Keeps R (wrapTimes s v n) := by
  induction n with
  | zero => exact fun v => keeps_pure v
  | succ n ih => exact fun v => (keeps_newTable h _).bind fun v => ih v

theorem keeps_guarded {run : Execution α} (h : Keeps R run) : Keeps R (guarded run) := by
  refine Keeps.tryCatch (h.bind fun a => keeps_pure _) fun thrown => ?_
  split
  · exact keeps_throw _
  · exact keeps_pure _

omit [IsPreorder World R] in
/-- What is run on the side leaves the hook as it was. -/
theorem run_aside {kind : Aside} {run : Execution α} {w v : World} {r : Except GuestValue α}
    (h : run.run.run (w.setState s ((w.state s).stepAside kind)) = (r, v)) :
    (aside s kind run).run.run w = (r, v.setState s ((v.state s).setHook (w.state s).hook)) := by
  have hbegin : (onState s fun g => (g.hook, g.stepAside kind)).run.run w
      = (.ok (w.state s).hook, w.setState s ((w.state s).stepAside kind)) := rfl
  have hlift : (ExceptT.lift run.run : Execution (Except GuestValue α)).run.run
      (w.setState s ((w.state s).stepAside kind)) = (.ok r, v) := by
    show (Except.ok (run.run.run _).1, (run.run.run _).2) = _
    rw [h]
  rw [aside, run_bind_ok hbegin, run_bind_ok hlift]
  cases r <;> rfl

omit [IsPreorder World R] in
theorem keeps_aside (h : Evaluates R s) (kind : Aside) {run : Execution α} (hrun : Keeps R run) :
    Keeps R (aside s kind run) := fun w => by
  have hw := hrun (w.setState s ((w.state s).stepAside kind))
  rcases hr : run.run.run (w.setState s ((w.state s).stepAside kind)) with ⟨r, v⟩
  rw [run_aside hr]
  rw [hr] at hw
  exact h.aside kind w v hw

/-! ## Access -/

section Access

variable {calls : Calls} {chunk : Option String} {origin : Origin} {v key value : GuestValue}
  {args : List GuestValue}

theorem keeps_callValue (hc : calls.Keep R s) {callee : GuestValue} :
    Keeps R (callValue calls chunk s origin callee args) := by
  rw [callValue.eq_def]
  split
  · exact hc _ _ _
  · refine keeps_stateOf.bind fun g => ?_
    split
    · exact hc _ _ _
    · exact keeps_throw _

theorem keeps_index (hc : calls.Keep R s) : Keeps R (index calls chunk s origin v key) := by
  have hfollow : ∀ left v, Keeps R (index.follow calls chunk s origin key left v) := by
    intro left
    induction left with
    | zero => exact fun v => keeps_throw _
    | succ left ih =>
      intro v
      rw [index.follow]
      refine keeps_stateOf.bind fun g => ?_
      dsimp only
      split
      · exact keeps_pure _
      · split
        · exact keeps_throw _
        · exact (hc _ _ _).bind fun _ => keeps_pure _
        · exact ih _
  exact hfollow metatableChain v

theorem keeps_assign (h : Evaluates R s) (hc : calls.Keep R s) :
    Keeps R (assign calls chunk s origin v key value) := by
  have hfollow : ∀ left v, Keeps R (assign.follow calls chunk s origin key value left v) := by
    intro left
    induction left with
    | zero => exact fun v => keeps_throw _
    | succ left ih =>
      intro v
      rw [assign.follow]
      refine keeps_stateOf.bind fun g => ?_
      dsimp only
      split
      · split
        · exact keeps_onState h fun g => .single (.modifyTable _ _)
        · exact keeps_throw _
      · split
        · exact keeps_throw _
        · exact (hc _ _ _).bind fun _ => keeps_pure _
        · exact ih _
  exact hfollow metatableChain v

theorem keeps_textOf (hc : calls.Keep R s) : Keeps R (textOf calls s v) := by
  rw [textOf]
  refine keeps_stateOf.bind fun g => ?_
  split
  · exact keeps_pure _
  · refine (keeps_callValue hc).bind fun results => ?_
    split
    · exact keeps_pure _
    · exact keeps_pure _
    · exact keeps_pure _
    · exact keeps_throw _

theorem keeps_faultOf (hc : calls.Keep R s) : Keeps R (faultOf calls s v) := by
  rw [faultOf.eq_def]
  split
  · exact keeps_pure _
  · exact ((keeps_textOf hc).tryCatch fun _ => keeps_pure _).bind fun _ => keeps_pure _

end Access

/-! ## Functions of the library

Some functions of the library are written out, and the others are a parameter: what they do is a
tree of actions that scripts could take too, and the induction is on that tree. -/

section Arguments

variable (chunk : Option String) (name : String) (args : List GuestValue) (place : Nat)

theorem keeps_anyArgument : Keeps R (anyArgument chunk name args place) := by
  rw [anyArgument]
  split
  · exact keeps_pure _
  · exact keeps_throw _

theorem keeps_tableArgument : Keeps R (tableArgument chunk name args place) := by
  rw [tableArgument]
  split
  · exact keeps_pure _
  · exact keeps_throw _

theorem keeps_textArgument : Keeps R (textArgument chunk name args place) := by
  rw [textArgument]
  split
  · exact keeps_pure _
  · exact keeps_throw _

theorem keeps_integerArgument : Keeps R (integerArgument chunk name args place) := by
  rw [integerArgument]
  split
  · exact keeps_pure _
  · split
    · exact keeps_pure _
    · exact keeps_throw _
  · exact keeps_throw _

end Arguments

section Functions

variable {calls : Calls} {chunk : Option String} {args : List GuestValue}

theorem keeps_setMetatable (h : Evaluates R s) : Keeps R (setMetatable chunk s args) := by
  have hset : ∀ id (metatable : Option Nat), Keeps R (do
      let g ← stateOf s
      if (g.metafield (.table id) "__metatable").isNil then
        onState s fun g => ((), g.setMetatable id metatable)
        pure [.table id]
      else fail chunk "cannot change a protected metatable" : Execution (List GuestValue)) := by
    intro id metatable
    refine keeps_stateOf.bind fun g => ?_
    split
    · exact (keeps_onState h fun g => .single (.modifyTable _ _)).bind fun _ => keeps_pure _
    · exact keeps_throw _
  rw [setMetatable]
  refine (keeps_tableArgument _ _ _ _).bind fun id => ?_
  dsimp only
  split
  · exact (keeps_pure _).bind (hset id)
  · exact (keeps_pure _).bind (hset id)
  · exact keeps_throw_bind _ _

/-- A function that is not written out does only what scripts can do as well. -/
theorem keeps_libraryAction (h : Evaluates R s) (hc : calls.Keep R s) (action : LibraryAction) :
    Keeps R (action.run calls s) := by
  induction action with
  | finish results => exact keeps_pure _
  | fail thrown => exact keeps_throw _
  | look resume ih => exact keeps_stateOf.bind fun g => ih g
  | set table key value resume ih =>
    exact (keeps_onState h fun _ => .single (.modifyTable _ _)).bind fun _ => ih
  | setMetatable table metatable resume ih =>
    exact (keeps_onState h fun _ => .single (.modifyTable _ _)).bind fun _ => ih
  | newTable t resume ih => exact (keeps_onState h fun _ => .single (.newTable t)).bind ih
  | newFunction f guest resume ih =>
    exact (keeps_onState h fun _ => .single (.newFunction f guest)).bind ih
  | call kind f args resume ih =>
    refine (keeps_guarded ?_).bind ih
    cases kind with
    | none => exact keeps_callValue hc
    | some kind => exact keeps_aside h kind (keeps_callValue hc)

theorem keeps_createCoroutine (h : Evaluates R s) (name : String) :
    Keeps R (createCoroutine chunk s name args) := by
  rw [createCoroutine]
  split
  · exact keeps_onState h fun _ => .single (.newThread _)
  · exact keeps_throw _

theorem keeps_resume (h : Evaluates R s) (hc : calls.Keep R s) (thread : Nat) :
    Keeps R (resume calls s thread args) := by
  refine keeps_stateOf.bind fun g => ?_
  split
  · refine (keeps_onState h fun _ => .single (.setStatus _ _)).bind fun _ => ?_
    exact (keeps_guarded (keeps_aside h _ (hc _ _ _))).bind fun _ =>
      (keeps_onState h fun _ => .single (.setStatus _ _)).bind fun _ => keeps_pure _
  · exact keeps_pure _
  · exact keeps_pure _

theorem keeps_callResumption (h : Evaluates R s) (hc : calls.Keep R s) (thread : Nat) :
    Keeps R (callResumption calls chunk s thread args) := by
  refine (keeps_resume h hc thread).bind fun outcome => ?_
  split
  · exact keeps_pure _
  · exact keeps_throw _
  · exact keeps_throw _

theorem keeps_builtin (h : Evaluates R s) (hc : calls.Keep R s) (name : String) :
    Keeps R (builtin calls chunk s name args) := by
  rw [builtin.eq_def]
  split
  · exact (keeps_anyArgument _ _ _ _).bind fun _ => keeps_pure _
  · exact (keeps_anyArgument _ _ _ _).bind fun _ => (keeps_textOf hc).bind fun _ => keeps_pure _
  · exact (keeps_anyArgument _ _ _ _).bind fun _ => keeps_pure _
  · exact (keeps_anyArgument _ _ _ _).bind fun _ => keeps_stateOf.bind fun _ => keeps_pure _
  · exact keeps_setMetatable h
  · exact (keeps_tableArgument _ _ _ _).bind fun _ => keeps_stateOf.bind fun _ => keeps_pure _
  · refine (keeps_tableArgument _ _ _ _).bind fun id => ?_
    dsimp only
    split
    · exact keeps_throw_bind _ _
    · exact (keeps_onState h fun g => .single (.modifyTable _ _)).bind fun _ => keeps_pure _
  · exact (keeps_anyArgument _ _ _ _).bind fun _ =>
      (keeps_anyArgument _ _ _ _).bind fun _ => keeps_pure _
  · refine keeps_stateOf.bind fun g => ?_
    split
    · exact keeps_pure _
    · exact keeps_throw _
  · dsimp only
    split
    · exact (keeps_throw _).ite (keeps_throw _)
    · exact keeps_throw _
  · refine (keeps_anyArgument _ _ _ _).bind fun v => ?_
    split
    · exact keeps_pure _
    · split
      · exact keeps_throw _
      · exact keeps_throw _
  · refine (keeps_anyArgument _ _ _ _).bind fun f => ?_
    refine (keeps_guarded (keeps_callValue hc)).bind fun r => ?_
    cases r with
    | ok results => exact keeps_pure _
    | error thrown => exact keeps_pure _
  · refine (keeps_anyArgument _ _ _ _).bind fun f => (keeps_anyArgument _ _ _ _).bind fun handler => ?_
    refine (keeps_guarded (keeps_callValue hc)).bind fun r => ?_
    cases r with
    | ok results => exact keeps_pure _
    | error thrown => exact (keeps_callValue hc).bind fun _ => keeps_pure _
  · exact (keeps_textArgument _ _ _ _).bind fun _ => keeps_pure _
  · exact (keeps_textArgument _ _ _ _).bind fun _ => keeps_pure _
  · exact (keeps_textArgument _ _ _ _).bind fun _ => keeps_pure _
  · exact (keeps_textArgument _ _ _ _).bind fun _ => keeps_pure _
  · refine (keeps_textArgument _ _ _ _).bind fun bytes => ?_
    refine (keeps_integerArgument _ _ _ _).bind fun n => keeps_stateOf.bind fun g => ?_
    dsimp only
    split
    · exact keeps_throw _
    · exact keeps_pure _
  · exact (keeps_createCoroutine h _).bind fun _ => keeps_pure _
  · exact (keeps_createCoroutine h _).bind fun _ => keeps_onState h fun _ =>
      .single (.newFunction _ fun _ _ heq => by cases heq)
  · split
    · refine (keeps_resume h hc _).bind fun outcome => ?_
      cases outcome with
      | ok results => exact keeps_pure _
      | error thrown => exact keeps_pure _
    · exact keeps_throw _
  · refine keeps_stateOf.bind fun g => ?_
    split
    · exact keeps_throw _
    · exact keeps_throw _
  · exact keeps_get_bind fun w => keeps_libraryAction h hc _ w

theorem keeps_callFirst (hc : calls.Keep R s) : Keeps R (callFirst calls s args) :=
  keeps_callValue hc

theorem keeps_routine (h : Evaluates R s) (hc : calls.Keep R s) (r : Routine) :
    Keeps R (routine calls s r args) := by
  rw [routine.eq_def]
  refine (keeps_pay h _).bind fun _ => ?_
  cases r with
  | identity => exact keeps_pure _
  | nothing => exact keeps_pure _
  | several => exact keeps_pure _
  | count => exact keeps_pure _
  | multiply =>
    dsimp only
    split
    · exact keeps_pure _
    · exact keeps_throw _
    · exact keeps_throw _
  | types => exact (keeps_newTable h _).bind fun _ => keeps_pure _
  | fail => exact keeps_throw _
  | apply => exact keeps_callFirst hc
  | results => exact (keeps_callFirst hc).bind fun _ => (keeps_newTable h _).bind fun _ => keeps_pure _
  | guarded => exact (keeps_guarded (keeps_callValue hc)).bind fun _ => keeps_pure _
  | cycle =>
    refine (keeps_onState h fun g => ?_).bind fun _ => keeps_pure _
    exact .tail (.single (.newTable {})) (.modifyTable _ _)
  | bytes => exact keeps_pure _
  | nest =>
    dsimp only
    split
    · exact (keeps_wrapTimes h _ _).bind fun _ => keeps_pure _
    · exact (keeps_wrapTimes h _ _).bind fun _ => keeps_pure _
    · exact keeps_throw _
  | setLeak => exact keeps_stateOf.bind fun _ => (keeps_assign h hc).bind fun _ => keeps_pure _
  | getLeak => exact keeps_stateOf.bind fun _ => (keeps_index hc).bind fun _ => keeps_pure _
  | coroutine =>
    refine (keeps_onState h fun g => ?_).bind fun _ => keeps_pure _
    exact .tail (.single (.newFunction _ fun _ _ heq => by cases heq)) (.newThread _)
  | properties =>
    exact (keeps_index hc).bind fun _ => (keeps_index hc).bind fun _ => (keeps_index hc).bind fun _ =>
      (keeps_textOf hc).bind fun _ => (keeps_newTable h _).bind fun _ => keeps_pure _
  | pair => exact (keeps_newTable h _).bind fun _ => keeps_pure _

end Functions

/-! ## Scripts

Expressions and statements are evaluated by mutual recursion, and the proof goes along with it, one
case for each form of the syntax.  What a function does that is called is no part of it: calls are a
parameter, and are assumed to be as they should. -/

section Scripts

variable {calls : Calls} {chunk : String}

theorem keeps_followPath (hc : calls.Keep R s) (path : List Literal) :
    ∀ isGlobal origin v, Keeps R (followPath calls chunk s path isGlobal origin v) := by
  induction path with
  | nil => exact fun _ _ _ => keeps_pure _
  | cons key rest ih => exact fun _ _ _ => (keeps_index hc).bind fun _ => ih _ _ _

theorem keeps_readPath (h : Evaluates R s) (hc : calls.Keep R s) (path : List Literal) :
    Keeps R (readPath calls chunk s path) :=
  (keeps_pay h _).bind fun _ => keeps_stateOf.bind fun _ => keeps_followPath hc path _ _ _

theorem keeps_callGlobal (h : Evaluates R s) (hc : calls.Keep R s) (name : String)
    {args : Execution (List GuestValue)} (hargs : Keeps R args) :
    Keeps R (callGlobal calls chunk s name args) :=
  (keeps_readPath h hc _).bind fun _ => hargs.bind fun _ => (keeps_pay h 1).bind fun _ =>
    keeps_callValue hc

theorem keeps_addEntry (h : Evaluates R s) (id : Nat) (key value : GuestValue) :
    Keeps R (addEntry chunk s id key value) := by
  rw [addEntry]
  dsimp only
  split
  · exact keeps_throw_bind _ _
  · exact keeps_onState h fun g => .single (.modifyTable _ _)

theorem keeps_newFunction (h : Evaluates R s) (body : Script) : Keeps R (newFunction chunk s body) :=
  (keeps_pay h 1).bind fun _ => keeps_onState h fun _ =>
    .single (.newFunction _ fun _ _ heq => by cases heq)

theorem keeps_takeMemory (h : Evaluates R s) : Keeps R (takeMemory s) := by
  refine (keeps_pay h 5).bind fun _ => keeps_stateOf.bind fun g => ?_
  dsimp only
  split
  · exact keeps_throw _
  · exact keeps_pure _

mutual

theorem keeps_eval (h : Evaluates R s) (hc : calls.Keep R s) :
    ∀ e : Expr, Keeps R (eval calls chunk s e)
  | .literal l => (keeps_pay h 1).bind fun _ => keeps_pure _
  | .get path => (keeps_readPath h hc path).bind fun _ => keeps_pure _
  | .table entries =>
      (keeps_pay h 1).bind fun _ => (keeps_onState h fun _ => .single (.newTable {})).bind fun id =>
        (keeps_evalEntries h hc id entries).bind fun _ => keeps_pure _
  | .call f args =>
      (keeps_eval h hc f).bind fun _ => (keeps_evalAll h hc args).bind fun _ =>
        (keeps_pay h 1).bind fun _ => (keeps_callValue hc).bind fun _ => keeps_pure _
  | .results f args =>
      (keeps_eval h hc f).bind fun _ => (keeps_evalAll h hc args).bind fun _ =>
        (keeps_pay h 1).bind fun _ => (keeps_routine h hc .results).bind fun _ => keeps_pure _
  | .method receiver name args =>
      (keeps_eval h hc receiver).bind fun _ => (keeps_pay h 1).bind fun _ =>
        (keeps_index hc).bind fun _ => (keeps_evalAll h hc args).bind fun _ =>
          (keeps_pay h 1).bind fun _ => (keeps_callValue hc).bind fun _ => keeps_pure _
  | .index e key =>
      (keeps_eval h hc e).bind fun _ => (keeps_eval h hc key).bind fun _ =>
        (keeps_pay h 1).bind fun _ => keeps_index hc
  | .typeOf e =>
      (keeps_callGlobal h hc "type" ((keeps_eval h hc e).bind fun _ => keeps_pure _)).bind
        fun _ => keeps_pure _
  | .textOf e =>
      (keeps_callGlobal h hc "tostring" ((keeps_eval h hc e).bind fun _ => keeps_pure _)).bind
        fun _ => keeps_pure _
  | .metatableOf e =>
      (keeps_callGlobal h hc "getmetatable" ((keeps_eval h hc e).bind fun _ => keeps_pure _)).bind
        fun _ => keeps_pure _
  | .routine r =>
      (keeps_pay h 1).bind fun _ => keeps_onState h fun _ =>
        .single (.newFunction _ fun _ _ heq => by cases heq)
  | .constant e => keeps_newFunction h [.return [e]]
  | .guarded body =>
      (keeps_callGlobal h hc "pcall" ((keeps_newFunction h body).bind fun _ => keeps_pure _)).bind
        fun _ => keeps_pure _

theorem keeps_evalAll (h : Evaluates R s) (hc : calls.Keep R s) :
    ∀ es : List Expr, Keeps R (evalAll calls chunk s es)
  | [] => keeps_pure _
  | e :: rest =>
      (keeps_eval h hc e).bind fun _ => (keeps_evalAll h hc rest).bind fun _ => keeps_pure _

theorem keeps_evalEntries (h : Evaluates R s) (hc : calls.Keep R s) (id : Nat) :
    ∀ entries : List (Expr × Expr), Keeps R (evalEntries calls chunk s id entries)
  | [] => keeps_pure _
  | (key, value) :: rest =>
      (keeps_eval h hc key).bind fun k => (keeps_eval h hc value).bind fun v =>
        (keeps_pay h 1).bind fun _ => (keeps_addEntry h id k v).bind fun _ =>
          keeps_evalEntries h hc id rest

end

theorem keeps_exec (h : Evaluates R s) (hc : calls.Keep R s) (statement : Stmt) :
    Keeps R (exec calls chunk s statement) := by
  cases statement with
  | set path e =>
    refine (keeps_readPath h hc _).bind fun _ => (keeps_eval h hc e).bind fun _ =>
      (keeps_pay h 1).bind fun _ => ?_
    dsimp only
    split
    · exact (keeps_assign h hc).bind fun _ => keeps_pure _
    · exact keeps_pure _
  | setField e key value =>
    exact (keeps_eval h hc e).bind fun _ => (keeps_eval h hc key).bind fun _ =>
      (keeps_eval h hc value).bind fun _ => (keeps_pay h 1).bind fun _ =>
        (keeps_assign h hc).bind fun _ => keeps_pure _
  | setMetatable e metatable =>
    exact (keeps_callGlobal h hc "setmetatable" ((keeps_eval h hc e).bind fun _ =>
      (keeps_eval h hc metatable).bind fun _ => keeps_pure _)).bind fun _ => keeps_pure _
  | eval e => exact (keeps_eval h hc e).bind fun _ => keeps_pure _
  | «return» es => exact (keeps_evalAll h hc es).bind fun _ => keeps_pure _
  | fail e =>
    exact (keeps_callGlobal h hc "error" ((keeps_eval h hc e).bind fun _ => keeps_pure _)).bind
      fun _ => keeps_pure _
  | failPlain e =>
    exact (keeps_callGlobal h hc "error" ((keeps_eval h hc e).bind fun _ => keeps_pure _)).bind
      fun _ => keeps_pure _
  | loop => exact (keeps_payForever h).bind fun _ => keeps_pure _
  | count n => exact (keeps_pay h _).bind fun _ => keeps_pure _
  | hog => exact (keeps_takeMemory h).bind fun _ => keeps_pure _
  | malformed => exact keeps_pure _

theorem keeps_execAll (h : Evaluates R s) (hc : calls.Keep R s) (script : Script) :
    Keeps R (execAll calls chunk s script) := by
  induction script with
  | nil => exact (keeps_pay h 1).bind fun _ => keeps_pure _
  | cons statement rest ih =>
    refine (keeps_exec h hc statement).bind fun r => ?_
    cases r with
    | some results => exact (keeps_pay h 1).bind fun _ => keeps_pure _
    | none => exact ih

/-- Calling a function does what its kind does; what the host does is another matter. -/
theorem keeps_applyFunction (h : Evaluates R s) (hc : calls.Keep R s)
    (host : ∀ (w : World) (id : Nat) (target : FunctionValue) (c : Converter) (args : List GuestValue),
      (w.state s).functions[id]? = some (.trampoline target c) →
        R w ((trampoline calls s target c args).run.run w).2)
    (chunk : Option String) (id : Nat) (args : List GuestValue) :
    Keeps R (applyFunction calls chunk s id args) := by
  intro w
  rw [applyFunction, run_stateOf_bind]
  split
  · exact refl_of R w
  · exact keeps_builtin h hc _ w
  · exact keeps_routine h hc _ w
  · exact keeps_execAll h hc _ w
  · rename_i target c hf
    exact host w id target c args hf
  · exact keeps_callResumption h hc _ w

end Scripts

/-! ## Collections

A finalizer is called like any other function, only that nothing is charged for it and nothing is
thrown. -/

section Collections

variable {calls : Calls}

theorem keeps_finalize (h : Evaluates R s) (hc : calls.Keep R s) (table : Nat) :
    Keeps R (finalize calls s table) := by
  refine keeps_stateOf.bind fun g => ?_
  split
  · exact keeps_pure _
  · exact (keeps_guarded (keeps_aside h _ (keeps_callValue hc))).bind fun _ => keeps_pure _

theorem keeps_finalizeAll (h : Evaluates R s) (hc : calls.Keep R s) (tables : List Nat) :
    Keeps R (finalizeAll calls s tables) := by
  induction tables with
  | nil => exact keeps_pure _
  | cons table rest ih => exact (keeps_finalize h hc table).bind fun _ => ih

end Collections

end Execution
end ScriptPool
