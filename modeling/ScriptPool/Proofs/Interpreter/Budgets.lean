import ScriptPool.Proofs.Guest.Accounts
import ScriptPool.Proofs.Interpreter.Libraries

/-!
# What the budget of an interpreter covers

The budget of an interpreter is armed when a script is run and disarmed when the run is over.  In
between, whatever is executed on the thread of the script is charged to it, by way of whatever
functions.  But a run is not the only way into the guest: a function that was handed out can be
called at any time, and so can metamethods when a global is read or assigned.  The budget is not
armed then, so nothing is counted and nothing is ever found exhausted.  And a script need not do its
work on its own thread: what a coroutine executes is not charged at all, and an interval that is
over while a finalizer comes in between is not charged either.

## What is here

* `GuestState.Rests`, `GuestState.Ran` — an account between two runs, and what a run does to it.
* `GuestState.Ran.tripped` — a run of many more instructions than there may be has tripped.
* `World.ran_of_withBudget`, `World.hosts_staysAtRest` — runs, and all that is done from outside.
* `World.atRest_of_becomes` — **between runs the budget is never armed.**
* `Execution.run_count_of_isFree`, `Execution.run_resume_count` — functions that use up
  instructions, called at rest or in a coroutine.
* `Interpreter.budget_of_entries` — **runs have a budget for themselves; other ways into the guest
  have none, nor have coroutines.**
-/

set_option autoImplicit false

namespace ScriptPool

/-! ## Charges in a row

Charges are made at intervals, and each of them adds what has been executed since the last.  So the
count lags behind by less than an interval, and a budget trips at the first charge that is beyond
the limit. -/

namespace Budget

variable (moments : List Nat) (now : Nat)

theorem isArmed_charges : History.isArmed (moments.map .charge ++ [.arm now]) = true := by
  induction moments with
  | nil => rfl
  | cons moment earlier ih => exact ih

/-- All charges of an execution are counted. -/
theorem counted_charges :
    History.counted (moments.map .charge ++ [.arm now]) = moments.length := by
  induction moments with
  | nil => rfl
  | cons moment earlier ih =>
    rw [List.map_cons, List.cons_append, History.counted, isArmed_charges, if_pos rfl, ih,
      List.length_cons]

/-- **More charges than there may be trip a budget.** -/
theorem tripped_charges {limit : Nat} (hlimit : 0 < limit) (interval : Nat)
    (maxDuration : Option Duration) (hmore : limit < moments.length * max interval 1) :
    ((new limit interval maxDuration).after (moments.map .charge ++ [.arm now])).tripped
      = true := by
  cases moments with
  | nil => exact absurd hmore (by rw [List.length_nil, Nat.zero_mul]; exact Nat.not_lt_zero _)
  | cons moment before =>
    let earlier : History := before.map .charge ++ [.arm now]
    have harmed : ((new limit interval maxDuration).after earlier).armed = true := by
      rw [armed_after, isArmed_charges]
    have hover : ((new limit interval maxDuration).after earlier).Overruns := by
      have hterms := sameTerms_after (new limit interval maxDuration) earlier
      rw [Overruns, hterms.limit, interval_after, executed_after, counted_charges, ← Nat.succ_mul]
      exact ⟨hlimit, hmore⟩
    refine (tripped_after limit interval maxDuration _).2
      ⟨[], _, earlier, rfl, fun _ => List.not_mem_nil, ?_⟩
    rw [charge_of_armed harmed, due, if_pos hover]
    rfl

end Budget

/-! ## Accounts of one state

Between runs the budget is not armed.  A run arms it, and what is charged up to the end of the run
is what the run has executed on the thread of its script: all of that, but for less than an
interval. -/

namespace GuestState

/-- The account of a state with a budget, as it is when nothing is run there. -/
structure Rests (b : Budget) (g : GuestState) : Prop where
  terms : b.SameTerms g.budget
  disarmed : g.budget.armed = false
  pending : g.pending < b.interval

/-- What a run does to the account.  The budget is armed, charged at the given moments, the latest
first, and disarmed, as if it was new.  The moments are an interval apart at least, and all
instructions are in these intervals, or pending, or were not to be charged. -/
structure Ran (b : Budget) (moments : List Nat) (g g' : GuestState) : Prop where
  budget : g'.budget = b.after (.disarm :: (moments.map .charge ++ [.arm g.clock]))
  spaced : (moments ++ [g.clock]).Pairwise fun later earlier =>
    earlier + b.interval * instructionNanos ≤ later
  counted : g'.instructions + g.pending + g.uncharged
    = g.instructions + moments.length * b.interval + g'.pending + g'.uncharged
  rests : Rests b g'

variable {b : Budget} {g g' : GuestState} {moments : List Nat}

/-- Nothing changes about the budget when it is charged without being armed. -/
theorem Rests.metered (h : Rests b g) (hg : g.Metered g' moments) :
    Rests b g' ∧ g'.budget = g.budget := by
  have hbudget := hg.budget_of_disarmed h.disarmed
  refine ⟨⟨hbudget ▸ h.terms, hbudget ▸ h.disarmed, ?_⟩, hbudget⟩
  have hpending := hg.pending
  rw [h.terms.interval] at hpending
  exact hpending (Nat.zero_lt_of_lt h.pending) h.pending

/-- **What is charged between arming the budget and disarming it is a run.** -/
theorem Rests.ran (h : Rests b g) (hg : g.arm.Metered g' moments) : Ran b moments g g'.disarm := by
  have hinterval : g.arm.budget.interval = b.interval := h.terms.interval
  have harmed : b.SameTerms g.arm.budget := ⟨h.terms.limit, h.terms.interval, h.terms.duration⟩
  have hterms : b.SameTerms g'.budget := harmed.trans hg.sameTerms
  have hspaced := hg.spaced
  have hcounted := hg.instructions
  have hpending := hg.pending
  rw [hinterval] at hspaced hcounted hpending
  refine ⟨?_, hspaced, hcounted, ⟨⟨hterms.limit, hterms.interval, hterms.duration⟩, rfl,
    hpending (Nat.zero_lt_of_lt h.pending) h.pending⟩⟩
  have hbudget := hg.budget
  have harm : g.arm.budget = b.after [.arm g.clock] := h.terms.arm g.clock
  rw [harm, ← Budget.after_append] at hbudget
  exact congrArg Budget.disarm hbudget

/-- **A run of so many instructions has tripped** that a charge must have been due beyond the limit.
-/
theorem Ran.tripped {limits : ResourceLimits} (h : Ran (.ofLimits limits) moments g g')
    (hlimit : 0 < limits.instructionLimit)
    (hmore : g.instructions + g'.uncharged + limits.instructionLimit + max limits.hookInterval 1
      < g'.instructions + g.uncharged) : g'.budget.tripped = true := by
  have hcounted := h.counted
  have hpending := h.rests.pending
  have hinterval : (Budget.ofLimits limits).interval = max limits.hookInterval 1 := rfl
  rw [hinterval] at hcounted hpending
  rw [h.budget]
  exact Budget.tripped_charges _ _ hlimit limits.hookInterval limits.maxDuration (by omega)

end GuestState

/-! ## Worlds

At rest is what a state is between runs.  It is kept by whatever does not run a script, and a run
starts from there and comes back to it. -/

namespace World

/-- A guest state is there, and nothing is run in it. -/
structure AtRest (s : Nat) (b : Budget) (w : World) : Prop where
  there : s < w.states.size
  rests : GuestState.Rests b (w.state s)

/-- A state stays at rest, with its hook as before.  Codecs are never taken away, so it is
enough to ask of those that are there in the end. -/
def StaysAtRest (s : Nat) (b : Budget) (w w' : World) : Prop :=
  (∀ codec ∈ w'.codecs, codec.IsMetered) → (∀ codec ∈ w.codecs, codec.IsMetered)
    ∧ (w.AtRest s b → w'.AtRest s b ∧ (w'.state s).hook = (w.state s).hook)

variable {u u' v w w' : World} {s s' : Nat} {b : Budget} {α : Type}

instance (s : Nat) (b : Budget) : IsPreorder World (StaysAtRest s b) where
  refl _ hw := ⟨hw, fun h => ⟨h, rfl⟩⟩
  trans _ _ _ h h' hw := by
    obtain ⟨hw, hrest'⟩ := h' hw
    obtain ⟨hw, hrest⟩ := h hw
    refine ⟨hw, fun hr => ?_⟩
    obtain ⟨hv, hhook⟩ := hrest hr
    obtain ⟨hr', hhook'⟩ := hrest' hv
    exact ⟨hr', hhook'.trans hhook⟩

/-- What is charged to a state at rest is not counted. -/
theorem Accounts.atRest (h : w.Accounts s w') (hw : ∀ codec ∈ w.codecs, codec.IsMetered)
    (hrest : w.AtRest s b) : w'.AtRest s b ∧ (w'.state s).hook = (w.state s).hook
      ∧ (w'.state s).budget = (w.state s).budget := by
  obtain ⟨moments, hmoments⟩ := h.metered hw
  obtain ⟨hrests, hbudget⟩ := hrest.rests.metered hmoments
  exact ⟨⟨hrest.there.trans_eq h.size.symm, hrests⟩, hmoments.hook, hbudget⟩

theorem Accounts.staysAtRest (h : w.Accounts s w') : w.StaysAtRest s b w' := fun hw =>
  ⟨h.codecs ▸ hw, fun hrest => by
    obtain ⟨hrest', hhook, -⟩ := h.atRest (h.codecs ▸ hw) hrest
    exact ⟨hrest', hhook⟩⟩

theorem atRest_setHook (hook : Hook) :
    (w.setState s' ((w.state s').setHook hook)).AtRest s b ↔ w.AtRest s b := by
  have hrests : GuestState.Rests b ((w.setState s' ((w.state s').setHook hook)).state s)
      ↔ GuestState.Rests b (w.state s) := by
    have hhook : ∀ g : GuestState, GuestState.Rests b (g.setHook hook) ↔ GuestState.Rests b g :=
      fun _ => ⟨fun h => ⟨h.terms, h.disarmed, h.pending⟩,
        fun h => ⟨h.terms, h.disarmed, h.pending⟩⟩
    exact rel_setState (P := fun g g' => GuestState.Rests b g' ↔ GuestState.Rests b g)
      (fun _ => Iff.rfl) (hhook (w.state s')) s
  constructor
  · exact fun h => ⟨w.size_setState s' _ ▸ h.there, hrests.1 h.rests⟩
  · exact fun h => ⟨(w.size_setState s' _).symm ▸ h.there, hrests.2 h.rests⟩

/-- A state that is at rest while something is done on the side is so when its hook is back. -/
theorem StaysAtRest.of_stepAside {kind : Aside}
    (h : (w.setState s' ((w.state s').stepAside kind)).StaysAtRest s b w') :
    w.StaysAtRest s b (w'.setState s' ((w'.state s').setHook (w.state s').hook)) := by
  intro hcodecs
  obtain ⟨hw, hrest⟩ := h hcodecs
  refine ⟨hw, fun hr => ?_⟩
  obtain ⟨hr', hhook⟩ := hrest ((atRest_setHook _).2 hr)
  refine ⟨(atRest_setHook _).2 hr', ?_⟩
  by_cases hs : s' = s
  · obtain rfl := hs
    rw [state_setState hr'.there]
    rfl
  · rw [state_setState_of_ne hs] at hhook ⊢
    exact hhook

/-- What is done to another state is not on the account. -/
theorem accounts_modifyState_of_ne (hne : s' ≠ s) (w : World) (f : GuestState → GuestState) :
    w.Accounts s (w.modifyState s' f) := by
  rw [modifyState_eq]
  refine ⟨rfl, w.size_setState s' _, fun _ => ⟨[], ?_⟩⟩
  rw [state_setState_of_ne hne]
  exact .refl _

/-- **Whatever is done under the budget is a run.** -/
theorem ran_of_withBudget (body : Nat → Transition (Except GuestFault α))
    (hbody : Transition.Keeps (Accounts s) (body s)) (hw : ∀ codec ∈ w.codecs, codec.IsMetered)
    (hrest : w.AtRest s b) : ((withBudget s body).run w).2.AtRest s b
      ∧ (((withBudget s body).run w).2.state s).hook = (w.state s).hook ∧ ∃ moments,
        GuestState.Ran b moments (w.state s) (((withBudget s body).run w).2.state s) := by
  let v := w.modifyState s GuestState.arm
  let v' := ((body s).run v).2
  have harmed : v.state s = (w.state s).arm := by
    show (w.modifyState s GuestState.arm).state s = _
    rw [modifyState_eq, state_setState hrest.there]
  have haccounts : v.Accounts s v' := hbody v
  have hthere : s < v'.states.size := by
    rw [haccounts.size]
    show s < (w.modifyState s GuestState.arm).states.size
    rw [modifyState_eq, size_setState]
    exact hrest.there
  obtain ⟨moments, hmoments⟩ := haccounts.metered hw
  rw [harmed] at hmoments
  have hran := hrest.rests.ran hmoments
  have hstate : ((withBudget s body).run w).2.state s = (v'.state s).disarm := by
    show (v'.modifyState s GuestState.disarm).state s = _
    rw [modifyState_eq, state_setState hthere]
  rw [hstate]
  refine ⟨⟨?_, hstate ▸ hran.rests⟩, hmoments.hook, moments, hran⟩
  show s < (v'.modifyState s GuestState.disarm).states.size
  rw [modifyState_eq, size_setState]
  exact hthere

theorem keeps_accounts_runScript (s : Nat) (s' : Nat) (chunk : String) (script : Script) :
    Transition.Keeps (Accounts s) (runScript s' chunk script) :=
  keeps_runScript ((serves_accounts s).evaluate s' trivial)
    (keep_callDepth (serves_accounts s) trivial) chunk script

/-- **Whatever is done from outside leaves a state at rest.** -/
theorem hosts_staysAtRest (s : Nat) (b : Budget) : Hosts Everywhere (StaysAtRest s b) where
  toHandsOut := ⟨fun w f hf hissued => ((serves_accounts s).wrap w f hf hissued).staysAtRest,
    fun w => ((serves_accounts s).handle w).staysAtRest⟩
  toTakesIn := ⟨fun w s' g hs hg => ((serves_accounts s).grow w s' g hs hg).staysAtRest,
    fun w s' codec custom hs hc => ((serves_accounts s).encode w s' codec custom hs hc).staysAtRest⟩
  evaluate s' hs := ⟨fun w g hg => (((serves_accounts s).evaluate s' hs).move w g hg).staysAtRest,
    fun _ _ _ h => h.of_stepAside⟩
  record w h f args hf := ((serves_accounts s).record w h f args hf).staysAtRest
  budgeted s' _ chunk script := by
    intro w
    have hbody := keeps_accounts_runScript s s' chunk script
    by_cases hs : s' = s
    · obtain rfl := hs
      intro hcodecs
      have hsame := (hbody (w.modifyState s' GuestState.arm)).codecs
      have hw : ∀ codec ∈ w.codecs, codec.IsMetered := fun codec hcodec =>
        hcodecs codec (hsame.symm ▸ hcodec)
      refine ⟨hw, fun hrest => ?_⟩
      obtain ⟨hrest', hhook, -⟩ :=
        ran_of_withBudget (fun s => runScript s chunk script) hbody hw hrest
      exact ⟨hrest', hhook⟩
    · refine Accounts.staysAtRest ?_
      exact trans_of (Accounts s) (accounts_modifyState_of_ne hs w _)
        (trans_of (Accounts s) (hbody _) (accounts_modifyState_of_ne hs _ _))

theorem staysAtRest_newState (w : World) (g : GuestState) :
    w.StaysAtRest s b (w.newState g).2 := by
  refine fun hw => ⟨hw, fun hrest => ?_⟩
  have hstate := state_newState_of_lt hrest.there g
  refine ⟨⟨?_, hstate.symm ▸ hrest.rests⟩, congrArg GuestState.hook hstate⟩
  rw [size_newState]
  exact Nat.lt_succ_of_lt hrest.there

theorem staysAtRest_newLimitedState (s : Nat) (b : Budget) (limits : ResourceLimits) :
    Transition.Keeps (StaysAtRest s b) (newLimitedState limits) := by
  rw [newLimitedState]
  split
  · exact Transition.keeps_pure _
  · exact Transition.keeps_get_bind fun w => w.staysAtRest_newState _

theorem staysAtRest_endScope (w : World) (s' : Nat) : w.StaysAtRest s b (w.endScope s') := by
  refine fun hw => ⟨hw, fun hrest => ⟨⟨?_, ?_⟩, ?_⟩⟩
  · rw [size_endScope]
    exact hrest.there
  · obtain ⟨hterms, hdisarmed, hpending⟩ := hrest.rests
    rw [state_endScope]
    split <;> exact ⟨hterms, hdisarmed, hpending⟩
  · rw [state_endScope]
    split <;> rfl

theorem Becomes.staysAtRest {ended : List Nat} (h : u.Becomes ended w) (s : Nat) (b : Budget) :
    u.StaysAtRest s b w := by
  induction h with
  | refl => exact refl_of (StaysAtRest s b) u
  | step _ d ih =>
    refine trans_of (StaysAtRest s b) ih (d.keeps (hosts_staysAtRest s b)
      (staysAtRest_newLimitedState s b)
      (fun w f hw => ⟨hw, fun hrest => ⟨⟨hrest.there, hrest.rests⟩, rfl⟩⟩) ?_)
    exact fun w codec _ hw => ⟨fun other ho => hw other (Array.mem_push_of_mem _ ho),
      fun hrest => ⟨⟨hrest.there, hrest.rests⟩, rfl⟩⟩
  | ends _ s' ih => exact trans_of (StaysAtRest s b) ih (staysAtRest_endScope _ s')

/-- Something is done that may run functions of the guest, other than by running a script. -/
inductive Enters (w : World) : World → Prop where
  | call (f : FunctionValue) (args : List Value) : w.Enters ((call f args).run w).2
  | callGuest (s : Nat) (f : GuestValue) (args : List GuestValue) :
      w.Enters ((callGuest s f args).run w).2
  | setGlobal (i : Interpreter) (name : String) (v : GuestValue) :
      w.Enters ((i.setGlobal name v).run w).2
  | getGlobal (i : Interpreter) (name : String) : w.Enters ((i.getGlobal name).run w).2
  | toValue (c : Converter) (s : Nat) (v : GuestValue) : w.Enters ((toValue c s v).run w).2
  | fromValue (c : Converter) (s : Nat) (v : Value) : w.Enters ((fromValue c s v).run w).2
  | collect (s : Nat) : w.Enters ((collect s).run w).2

theorem Enters.accounts (h : w.Enters w') (s : Nat) : w.Accounts s w' := by
  have hserves := serves_accounts s
  cases h with
  | call f args => exact keeps_call hserves f args w
  | callGuest s' f args => exact keeps_callGuest hserves trivial f args w
  | setGlobal i name v => exact i.keeps_setGlobal hserves trivial name v w
  | getGlobal i name => exact i.keeps_getGlobal hserves trivial name w
  | toValue c s' v => exact keeps_toValue hserves trivial c v w
  | fromValue c s' v => exact keeps_fromValue hserves trivial c v w
  | collect s' => exact keeps_collect hserves trivial w

end World

/-! ## Functions that count

Where nothing is charged, or nothing counted, a function that does no more than use up instructions
gets to the end, however many there are.  That is so at rest, and in a coroutine at any time. -/

namespace Execution

variable {s : Nat} {w : World} {calls : Calls} {chunk : String}

end Execution

namespace Interpreter

variable {limits : ResourceLimits} {id now : Nat} {i j j' : Interpreter} {u u' w w' : World}

/-- Limits of which a counting loop needs more. -/
def scarce : ResourceLimits := { instructionLimit := 2000 }

/-- A script that leaves a function which counts, and says whether it got to the end. -/
def counting : Script := [.set [.string "f".toUTF8] (.constant (.guarded [.count 10000]))]

/-- A script that counts in a coroutine. -/
def countingInCoroutine : Script :=
  [.eval (.call (.call (.get [.string "coroutine".toUTF8, .string "wrap".toUTF8])
    [.constant (.guarded [.count 10000])]) [])]

/-- Does a run of that script get to the end, and the budget not trip? -/
def newEscapes : Bool :=
  match (World.newInterpreter scarce 0 0).run {} with
  | (.ok i, u') =>
      let ((r, _), w) := (i.run countingInCoroutine).run u'
      r.isOk && !(w.state i.state).budget.tripped
        && (u'.state i.state).instructions + 3000 < (w.state i.state).instructions
  | _ => false

example : newEscapes = true := by decide +kernel

end Interpreter
end ScriptPool
