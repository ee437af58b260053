import ScriptPool.Proofs.Pool.Closed
import ScriptPool.Service.Client

/-!
# What a shutdown promises

The first call of a shutdown closes the pool and waits, and when it answers, the pool is drained.  A
call that finds the pool closed answers at once that all is well, whoever it was that closed the
pool and however far he has come.

## What is here

* `Step` and `Run` — what can happen to a service as far as shutting down is concerned: its pool
  makes moves of its own, somebody calls for a shutdown, a shutdown that waits looks or is given up
  by its caller, and whatever else goes on in between.
* `shutDownLater_closed`, `shutDownLater_open` — what a call does.
* `look_waits`, `look_answers` — what a shutdown that waits does when it looks.
* `shutdown_of_run` — **what an answer is worth**.  That of the call which closed the pool says
  whether anything is on loan, and the pool is drained then; but what is in the making for a request
  will be handed out nevertheless.  That of any later call says nothing.
-/

set_option autoImplicit false

namespace ScriptPool

/-- A move that the pool makes of its own accord.  It is closed and drained by a shutdown only. -/
def Pool.Move.IsOwn : Pool.Move → Prop
  | .close => False
  | .drain => False
  | _ => True

namespace Service

open Transition

variable {config : PoolConfig} {opened : List Interpreter} {s t : Service}

/-- What a step of a service makes of it, in some world. -/
def Makes {α : Type} (move : Move α) (s : Service) (a : α) (t : Service) : Prop :=
  ∃ w w' : World, (move.run s).run w = ((a, t), w')

/-- What can happen to a service. -/
inductive Step (s : Service) : Service → Prop where
  /-- The pool makes a move of its own. -/
  | pool {m : Pool.Move} {p : Pool} (own : m.IsOwn) (h : Pool.Step s.pool m p) :
      Step s { s with pool := p }
  /-- Something happens that concerns neither the pool nor a shutdown: time passes, requests come
  and go, answers are picked up. -/
  | elsewhere {t : Service} (pool : t.pool = s.pool) (stopping : t.stopping = s.stopping) : Step s t
  /-- Somebody calls for a shutdown. -/
  | call (timeout : Duration) {key : Nat} {t : Service}
      (h : Makes (shutDownLater timeout) s key t) : Step s t
  /-- A shutdown that waits looks whether all interpreters are back. -/
  | look {move : Move Unit} {t : Service} (due : s.stop? = some move) (h : Makes move s () t) :
      Step s t
  /-- Whoever waits for a shutdown gives it up. -/
  | giveUp : Step s { s with stopping := none }

/-- A run of a service, from the opening of its pool. -/
inductive Run (config : PoolConfig) (opened : List Interpreter) : Service → Prop where
  | start {s : Service} (pool : Pool.Opened config opened s.pool) (calm : s.stopping = none) :
      Run config opened s
  | step {s t : Service} (h : Run config opened s) (st : Step s t) : Run config opened t

/-! ## Calls -/

/-- A call that finds the pool closed answers at once, and leaves everything as it is. -/
theorem shutDownLater_closed (hc : s.pool.closed = true) (timeout : Duration) (w : World) :
    ((shutDownLater timeout).run s).run w = ((s.nextKey, { s with
      nextKey := s.nextKey + 1
      endings := s.endings ++ [(s.nextKey, .shutdown (.ok ()))] }), w) := by
  simp only [shutDownLater, newKey, finish, bind_pure_comp, StateT.run_bind, StateT.run_modifyGet,
    StateT.run_get, pure_bind, hc, ↓reduceIte, StateT.run_map, StateT.run_modify, map_pure,
    StateT.run_pure]
  rfl

/-- A call that finds the pool open closes it, and waits. -/
theorem shutDownLater_open (hc : s.pool.closed = false) (timeout : Duration) (w : World) :
    ((shutDownLater timeout).run s).run w = ((s.nextKey, { s with
      nextKey := s.nextKey + 1
      pool := s.pool.close
      stopping := some { key := s.nextKey, timeout }
      nextLook := none
      nextSweep := none }), w) := by
  simp only [shutDownLater, newKey, bind_pure_comp, StateT.run_bind, StateT.run_modifyGet,
    StateT.run_get, pure_bind, hc, Bool.false_eq_true, ↓reduceIte, StateT.run_map, StateT.run_set,
    map_pure, StateT.run_pure]
  rfl

/-! ## Looks

A shutdown that waits looks at the pool again and again.  What its answer is worth is decided at the
last look, and by what may happen between that look and the answer, which is nothing. -/

/-- What an answer of a shutdown that has waited is worth: `p` is the pool when it looked for the
last time, and `q` is the pool when it answered. -/
structure Settled (outcome : Except PoolError Unit) (p q : Pool) : Prop where
  /-- It says how many interpreters are on loan, if any are. -/
  outcome : outcome
    = if p.loans.isEmpty then .ok () else .error (.shutdownTimeout p.loans.length)
  loans : q.loans = p.loans
  drained : q.drained = true
  idle : q.idle = []
  /-- What is handed out afterwards was in the making for a request. -/
  later : ∀ id, (∃ ms log r, Pool.Path q ms log r ∧ id ∈ log) ↔ p.Pending id

theorem loans_discardAll (l : List Interpreter) :
    ∀ p : Pool, Ensures (p.discardAll l) fun q => q.loans = p.loans := by
  induction l with
  | nil => exact fun p => ensures_pure rfl
  | cons i l ih =>
    refine fun p => (Pool.ensures_discard p i).bind ?_
    rintro q rfl
    exact ih _

/-- Draining leaves what is on loan and what is in the making. -/
theorem ensures_drain (p : Pool) : Ensures p.drain fun q =>
    q.loans = p.loans ∧ q.creations = p.creations ∧ q.drained = true :=
  ((loans_discardAll p.idle _).and (Pool.keeps_discardAll p.idle _)).bind fun _ hq =>
    ensures_pure ⟨hq.1, hq.2.creations, hq.2.drained⟩

/-- The answer of a shutdown that drains the pool. -/
theorem settled_drain {born : List Interpreter} {p : Pool} (hb : Pool.Balanced born p 0 0 [])
    (hc : p.closed = true) : Ensures p.drain fun q => Pool.Balanced born q 0 0 []
      ∧ Settled (if p.loans.isEmpty then .ok () else .error (.shutdownTimeout p.loans.length))
        p q := by
  refine ((ensures_drain p).and (hb.drain hc)).mono fun q hq => ?_
  obtain ⟨⟨hloans, hcreations, hdrained⟩, hbq⟩ := hq
  refine ⟨hbq, rfl, hloans, hdrained, (hbq.emptied hdrained).idle, fun id => ?_⟩
  rw [Pool.exists_path_handedOut hbq hdrained, Pool.Pending, Pool.Pending, hcreations]

theorem run_drained (stop : Shutdown) (outcome : Except PoolError Unit) (s : Service) (w : World) :
    (((drained stop outcome).run s).run w).1.2 = { s with
      pool := (s.pool.drain.run w).1
      stopping := none
      endings := s.endings ++ [(stop.key, .shutdown outcome)] } := rfl

theorem run_look (stop : Shutdown) (deadline : Nat) (s : Service) :
    (look stop deadline).run s = StateT.run
      (if s.pool.inUse = 0 then drained stop (.ok ())
      else if deadline ≤ s.now then drained stop (.error (.shutdownTimeout s.pool.inUse))
      else set { s with
        stopping := some { stop with draining := some (deadline, s.waited + drainPoll.nanos) } }) s :=
  rfl

/-- While something is on loan and its time is not over, a shutdown goes on waiting. -/
theorem look_waits {born : List Interpreter} (hb : Pool.Balanced born s.pool 0 0 [])
    (hlent : s.pool.loans ≠ []) (stop : Shutdown) {deadline : Nat} (hnow : s.now < deadline)
    (w : World) : ∃ next, (((look stop deadline).run s).run w).1.2
      = { s with stopping := some { stop with draining := some (deadline, next) } } := by
  have hinUse : s.pool.inUse ≠ 0 := fun hback =>
    hlent (List.eq_nil_of_length_eq_zero (hb.inUse.symm.trans hback))
  rw [run_look, if_neg hinUse, if_neg (Nat.not_le.2 hnow)]
  exact ⟨_, rfl⟩

/-- Otherwise it drains the pool and answers. -/
theorem look_answers {born : List Interpreter} (hb : Pool.Balanced born s.pool 0 0 [])
    (hc : s.pool.closed = true) (stop : Shutdown) {deadline : Nat}
    (hover : s.pool.loans = [] ∨ deadline ≤ s.now) (w : World) :
    ∃ q outcome, (((look stop deadline).run s).run w).1.2 = { s with
        pool := q
        stopping := none
        endings := s.endings ++ [(stop.key, .shutdown outcome)] }
      ∧ Pool.Balanced born q 0 0 [] ∧ Settled outcome s.pool q := by
  have hdrain := settled_drain hb hc w
  have hinUse := hb.inUse
  rw [run_look]
  by_cases hnone : s.pool.loans = []
  · have hback : s.pool.inUse = 0 := by rw [hinUse, hnone, List.length_nil]
    rw [if_pos hback]
    rw [if_pos (List.isEmpty_iff.2 hnone)] at hdrain
    exact ⟨_, .ok (), run_drained stop _ s w, hdrain⟩
  · have hback : s.pool.inUse ≠ 0 := fun hback =>
      hnone (List.eq_nil_of_length_eq_zero (hinUse.symm.trans hback))
    rw [if_neg hback, if_pos (hover.resolve_left hnone), hinUse]
    rw [if_neg fun hempty => hnone (List.isEmpty_iff.1 hempty)] at hdrain
    exact ⟨_, _, run_drained stop _ s w, hdrain⟩

/-- Until when a shutdown waits, if it looks now. -/
def deadline (stop : Shutdown) (now : Nat) : Nat :=
  match stop.draining with
  | none => now + stop.timeout.nanos
  | some (deadline, _) => deadline

/-- Whatever a shutdown has to do is to look. -/
theorem stop?_eq_some {move : Move Unit} (h : s.stop? = some move) :
    ∃ stop, s.stopping = some stop ∧ move = look stop (deadline stop s.now) := by
  rw [stop?] at h
  cases hs : s.stopping with
  | none =>
    rw [hs] at h
    cases h
  | some stop =>
    refine ⟨stop, rfl, ?_⟩
    rw [deadline]
    simp only [hs] at h
    cases hd : stop.draining with
    | none =>
      simp only [hd] at h
      split at h
      · cases h
      · exact (Option.some.inj h).symm
    | some pending =>
      simp only [hd] at h
      split at h
      · exact (Option.some.inj h).symm
      · cases h

/-! ## Runs

Two things are kept: the books of the pool are balanced, and whoever waits for a shutdown does so on
a closed pool.  The second is what the later calls go by, since they find the pool closed and ask no
further. -/

/-- What is true of a service at any time: the books of its pool are balanced, and where a shutdown
waits the pool is closed. -/
structure Sound (s : Service) : Prop where
  balanced : ∃ born, Pool.Balanced born s.pool 0 0 []
  closed : s.stopping.isSome = true → s.pool.closed = true

/-- **One step keeps a service sound.** -/
theorem Sound.step (h : Sound s) (st : Step s t) : Sound t := by
  obtain ⟨born, hb⟩ := h.balanced
  cases st with
  | @pool m p own hs =>
    refine ⟨⟨_, hs.balanced hb⟩, fun hstop => ?_⟩
    obtain ⟨-, w, w', hrun⟩ := hs
    exact (Pool.Move.closed m (h.closed hstop)).of_run hrun
  | elsewhere pool stopping =>
    refine ⟨⟨born, pool ▸ hb⟩, fun hstop => ?_⟩
    rw [pool]
    exact h.closed (stopping ▸ hstop)
  | @call timeout key t hm =>
    obtain ⟨w, w', hrun⟩ := hm
    cases hc : s.pool.closed with
    | true =>
      rw [shutDownLater_closed hc] at hrun
      cases hrun
      exact ⟨⟨born, hb⟩, fun _ => hc⟩
    | false =>
      rw [shutDownLater_open hc] at hrun
      cases hrun
      have hclose : Pool.Step s.pool .close s.pool.close := ⟨trivial, w, w, rfl⟩
      exact ⟨⟨_, hclose.balanced hb⟩, fun _ => rfl⟩
  | @look move t due hm =>
    obtain ⟨stop, hs, rfl⟩ := stop?_eq_some due
    obtain ⟨w, w', hrun⟩ := hm
    have hc := h.closed (hs ▸ rfl)
    have ht := congrArg (fun r => r.1.2) hrun
    by_cases hwait : s.pool.loans ≠ [] ∧ s.now < deadline stop s.now
    · obtain ⟨next, hlook⟩ := look_waits hb hwait.1 stop hwait.2 w
      obtain rfl : _ = t := hlook.symm.trans ht
      exact ⟨⟨born, hb⟩, fun _ => hc⟩
    · have hover : s.pool.loans = [] ∨ deadline stop s.now ≤ s.now := by
        rwa [not_and_or, not_not, Nat.not_lt] at hwait
      obtain ⟨q, outcome, hlook, hbq, -⟩ := look_answers hb hc stop hover w
      obtain rfl : _ = t := hlook.symm.trans ht
      exact ⟨⟨born, hbq⟩, fun hstop => absurd hstop Bool.false_ne_true⟩
  | giveUp => exact ⟨⟨born, hb⟩, fun hstop => absurd hstop Bool.false_ne_true⟩

theorem Run.sound (h : Run config opened s) : Sound s := by
  induction h with
  | start pool calm =>
    exact ⟨⟨_, pool.1.balanced⟩, fun hstop => by rw [calm] at hstop; cases hstop⟩
  | step _ st ih => exact ih.step st

/-- **What the answer of a shutdown is worth**, at any moment of any run.

A call on an open pool closes it and does not answer yet.  When it looks, it goes on waiting if
something is on loan and its time is not over.  Otherwise it drains the pool and says how many
interpreters are on loan, if any are; what is handed out after that was in the making for a request
at that moment, and all of that can be.

A call on a closed pool answers at once that all is well, whatever is on loan, in the queue or in
the making, and does nothing about it. -/
theorem shutdown_of_run (h : Run config opened s) :
    (s.pool.closed = false → ∀ timeout key t, Makes (shutDownLater timeout) s key t →
      t.pool = s.pool.close ∧ t.stopping = some { key, timeout } ∧ t.endings = s.endings)
    ∧ (∀ move t, s.stop? = some move → Makes move s () t → ∃ stop, s.stopping = some stop
      ∧ (s.pool.loans ≠ [] → s.now < deadline stop s.now → t.pool = s.pool ∧ t.endings = s.endings
        ∧ ∃ next, t.stopping = some { stop with draining := some (deadline stop s.now, next) })
      ∧ (s.pool.loans = [] ∨ deadline stop s.now ≤ s.now → ∃ outcome, t.stopping = none
        ∧ t.endings = s.endings ++ [(stop.key, .shutdown outcome)] ∧ Settled outcome s.pool t.pool))
    ∧ (s.pool.closed = true → ∀ timeout key t, Makes (shutDownLater timeout) s key t →
      t.pool = s.pool ∧ t.stopping = s.stopping
        ∧ t.endings = s.endings ++ [(key, .shutdown (.ok ()))]) := by
  obtain ⟨⟨born, hb⟩, hclosed⟩ := h.sound
  refine ⟨fun hc timeout key t hm => ?_, fun move t due hm => ?_, fun hc timeout key t hm => ?_⟩
  · obtain ⟨w, w', hrun⟩ := hm
    rw [shutDownLater_open hc] at hrun
    cases hrun
    exact ⟨rfl, rfl, rfl⟩
  · obtain ⟨stop, hs, rfl⟩ := stop?_eq_some due
    obtain ⟨w, w', hrun⟩ := hm
    have ht := congrArg (fun r => r.1.2) hrun
    refine ⟨stop, hs, fun hlent hnow => ?_, fun hover => ?_⟩
    · obtain ⟨next, hlook⟩ := look_waits hb hlent stop hnow w
      obtain rfl : _ = t := hlook.symm.trans ht
      exact ⟨rfl, rfl, next, rfl⟩
    · obtain ⟨q, outcome, hlook, -, hsettled⟩ := look_answers hb (hclosed (hs ▸ rfl)) stop hover w
      obtain rfl : _ = t := hlook.symm.trans ht
      exact ⟨outcome, rfl, rfl, hsettled⟩
  · obtain ⟨w, w', hrun⟩ := hm
    rw [shutDownLater_closed hc] at hrun
    cases hrun
    exact ⟨rfl, rfl, rfl⟩

/-- A pool is shut down while its only interpreter is on loan, and then once more: the second call
answers that all is well.  Another one is shut down while an interpreter is in the making for a
request: it answers that all is well too, and the interpreter is handed out afterwards. -/
theorem shutdown_of_run_twice :
    (∃ s t key, Run Pool.single [] s ∧ s.pool.loans.map (·.id) = [1]
      ∧ Makes (shutDownLater .zero) s key t ∧ t.pool.loans.map (·.id) = [1]
      ∧ t.endings = [(key, .shutdown (.ok ()))])
    ∧ ∃ s t move key, Run Pool.single [] s ∧ s.stop? = some move ∧ Makes move s () t
      ∧ t.endings = [(key, .shutdown (.ok ()))]
      ∧ ∃ ms log r, Pool.Path t.pool ms log r ∧ 1 ∈ log := by
  have ho : Pool.Opened Pool.single [] _ := ⟨.empty rfl, Nat.zero_le _⟩
  have h₀ : Run Pool.single [] { pool := _, factory := default } := .start ho rfl
  have h₁ := h₀.step (.pool (m := .request 7 3) trivial ⟨List.not_mem_nil, default, _, rfl⟩)
  constructor
  · have h₂ := h₁.step (.pool (m := .endCreation 1 (.ok Pool.firstMade)) trivial
      ⟨⟨⟨_, List.mem_cons_self, rfl, rfl⟩, fun i hi => by cases hi; rfl⟩, default, _, rfl⟩)
    have h₃ := h₂.step (.pool (m := .collect
      { id := 1, purpose := some (.request 7), outcome := some (.ok Pool.firstMade) }
      (.ok Pool.firstMade) 5) trivial ⟨⟨List.mem_cons_self, rfl⟩, default, _, rfl⟩)
    have h₄ := h₃.step (.call .zero ⟨default, default, rfl⟩)
    obtain ⟨hpool, -, hendings⟩ :=
      (shutdown_of_run h₄).2.2 rfl .zero _ _ ⟨default, default, rfl⟩
    exact ⟨_, _, _, h₄, rfl, ⟨default, default, rfl⟩,
      congrArg (fun p => p.loans.map (·.id)) hpool, hendings⟩
  · have h₂ := h₁.step (.call .zero ⟨default, default, rfl⟩)
    obtain ⟨stop, hs, -, hover⟩ :=
      (shutdown_of_run h₂).2.1 _ _ rfl ⟨default, default, rfl⟩
    obtain ⟨outcome, -, hendings, hsettled⟩ := hover (.inl rfl)
    obtain rfl := hsettled.outcome
    exact ⟨_, _, _, _, h₂, rfl, ⟨default, default, rfl⟩, hendings,
      (hsettled.later 1).2 ⟨_, List.mem_cons_self, rfl, rfl, rfl⟩⟩

end Service
end ScriptPool
