import ScriptPool.Proofs.Config.Normal
import ScriptPool.Proofs.Pool.Executing
import ScriptPool.Proofs.Pool.Joining
import ScriptPool.Service.Client

/-!
# Warming up

When a pool has been opened, a batch of tasks has interpreters warmed up.  Each task asks for an
interpreter, runs the script for warming up on it, if there is one, counts it and hands it back.
Nothing keeps a task from handing its interpreter back before another one asks, and that one may get
the same interpreter again.

So the number of interpreters that were counted as warmed up is not the number of those that are
warm.  What both have to do with each other, they have through the loans: a task is lent what it
warms up, and it is lent nothing else.  A batch is therefore looked at together with the history of
the loans, and what the tasks have is counted against that.

## What is here

* `WarmTask` — how far a task has come, and `WarmTask.Does`, what it does next.
* `Batch` — the tasks of a batch in any order of their steps, and with anything else going on in
  between.  The batch is over when all its tasks are.
* `Batch.sound` — **every task counts once, for a loan of its own**.
* `warmed_of_batch` — what the number of warmed interpreters says: how many tasks have warmed one
  up.  It is the number of interpreters if none of them was lent out twice.
* `exists_batch_one` — otherwise there may be a single one, however many tasks have counted it.
* `Service.requests_launch`, `Service.run_warmed` — this is what a service does for such tasks.
-/

set_option autoImplicit false

namespace ScriptPool
namespace Pool

open Transition LoanEvent

/-! ## Tasks

A task is a request that knows what to do with its interpreter.  It is described by how far it has
come, and the steps that it makes are moves of the pool with its own key. -/

/-- How far a task has come that warms an interpreter up. -/
inductive WarmTask where
  /-- It has not begun. -/
  | fresh
  /-- It waits for an interpreter. -/
  | asking
  /-- It has the interpreter of this number, and has done nothing with it. -/
  | holding (id : Nat)
  /-- It has run the script, with or without success. -/
  | ran (id : Nat) (succeeded : Bool)
  /-- It has counted its interpreter as warmed up. -/
  | counted (id : Nat)
  /-- It is over, but its script still runs; when that ends, the interpreter is handed back. -/
  | detached (id : Nat)
  /-- It is over.  If it has warmed an interpreter up, then that one. -/
  | finished (warmed : Option Nat)
  deriving Repr, DecidableEq

namespace WarmTask

/-- The interpreter that a task was lent, as long as it matters. -/
def lent? : WarmTask → Option Nat
  | .fresh => none
  | .asking => none
  | .holding id => some id
  | .ran id _ => some id
  | .counted id => some id
  | .detached id => some id
  | .finished warmed => warmed

/-- The interpreter that a task has warmed up, if it has. -/
def warmed? : WarmTask → Option Nat
  | .counted id => some id
  | .finished warmed => warmed
  | _ => none

/-- Is a task over? -/
def isOver : WarmTask → Bool
  | .detached _ => true
  | .finished _ => true
  | _ => false

/-- How far a task has come with the progress of its request. -/
def ofProgress : Progress → WarmTask
  | .lent id => .holding id
  | .failed _ => .finished none
  | .creating _ => .asking
  | .waiting => .asking

/-- Was a script run with success? -/
def succeeded {α : Type} : Option (Except InterpreterError α) → Bool
  | some (.ok _) => true
  | _ => false

/-- What a task does next, in a world; `key` is the key of its request. -/
inductive Does (config : PoolConfig) (key : Nat) (p : Pool) (w : World) :
    WarmTask → Move → WarmTask → Prop where
  | ask (now : Nat) :
      Does config key p w .fresh (.request key now) (ofProgress ((p.request key now).run w).1.1)
  | resume (now : Nat) :
      Does config key p w .asking (.resume key now) (ofProgress ((p.resume key now).run w).1.1)
  | collect {c : Creation} {outcome : Except InterpreterError Interpreter} {now : Nat}
      {progress : Progress} (h : ((p.collect c outcome now).run w).1.1 = some (key, progress)) :
      Does config key p w .asking (.collect c outcome now) (ofProgress progress)
  /-- The pool was closed. -/
  | turnAway : Does config key p w .asking (.turnAway key) (.finished none)
  /-- Its time is over. -/
  | giveUp : Does config key p w .asking (.giveUp key) (.finished none)
  | run {id : Nat} {text : String} (script : config.preWarmScript = some text) :
      Does config key p w (.holding id)
        (.onLoan id (droppingResult fun i => i.run (w.language.read text)))
        (.ran id (succeeded ((p.onLoan id fun i => i.run (w.language.read text)).run w).1.1))
  /-- Without a script, there is nothing to be run. -/
  | count {id : Nat} (bare : config.preWarmScript = none) :
      Does config key p w (.holding id) .notePrewarmed (.counted id)
  | countRan {id : Nat} : Does config key p w (.ran id true) .notePrewarmed (.counted id)
  | back {id : Nat} (now : Nat) :
      Does config key p w (.counted id) (.giveBack id now) (.finished (some id))
  | backFailed {id : Nat} (now : Nat) :
      Does config key p w (.ran id false) (.giveBack id now) (.finished none)
  | backDetached {id : Nat} (now : Nat) :
      Does config key p w (.detached id) (.giveBack id now) (.finished none)

end WarmTask

/-- The interpreters that tasks have warmed up, one for each task that has. -/
def warmed (ts : List WarmTask) : List Nat := ts.filterMap WarmTask.warmed?

/-- How many tasks there are in a batch. -/
def batchSize (c : PoolConfig) : Nat := if c.enablePreWarming then c.preWarmOnInit else 0

/-- A batch of tasks on a pool that has just been opened, with the moves and the history of the
loans, the latest first.  A task is known to the pool by its place in the batch. -/
inductive Batch (start : Pool) : List WarmTask → List Move → List LoanEvent → Pool → Prop where
  | start : Batch start (List.replicate (batchSize start.config) .fresh) [] [] start
  /-- A task goes on. -/
  | task {before after : List WarmTask} {t t' : WarmTask} {ms : List Move} {d : List LoanEvent}
      {p q : Pool} {m : Move} {w w' : World} (h : Batch start (before ++ t :: after) ms d p)
      (does : t.Does start.config before.length p w m t') (allowed : m.Allowed p)
      (run : (m.apply p).run w = (q, w')) :
      Batch start (before ++ t' :: after) (m :: ms) (loanEvents m.moment p q ++ d) q
  /-- A task does not wait for its script any longer. -/
  | detach {before after : List WarmTask} {id : Nat} {ms : List Move} {d : List LoanEvent}
      {p : Pool} (h : Batch start (before ++ .holding id :: after) ms d p) :
      Batch start (before ++ .detached id :: after) ms d p
  /-- Something else goes on: a creation begins or ends, the queue is swept, a script of a task that
  is over ends, somebody else borrows an interpreter. -/
  | other {ts : List WarmTask} {ms : List Move} {d : List LoanEvent} {p q : Pool} {m : Move}
      (h : Batch start ts ms d p) (silent : m.notes = 0) (s : Step p m q) :
      Batch start ts (m :: ms) (loanEvents m.moment p q ++ d) q

variable {config : PoolConfig} {opened born : List Interpreter} {ms : List Move} {m : Move}
  {d : List LoanEvent} {start p q : Pool} {ts : List WarmTask} {t t' : WarmTask} {key : Nat}
  {w w' : World}

theorem Opened.batch (_ : Opened config opened start) :
    Batch start (List.replicate (batchSize start.config) .fresh) [] [] start := .start

theorem Batch.diary (h : Batch start ts ms d p) : Diary start ms d p := by
  induction h with
  | start => exact .refl
  | task _ _ allowed run ih => exact ih.step ⟨allowed, _, _, run⟩
  | detach _ ih => exact ih
  | other _ _ s ih => exact ih.step s

/-! ## What a task was lent -/

/-- What is lent is on loan. -/
theorem mem_loans_lend (p : Pool) (i : Interpreter) (now : Nat) :
    i.id ∈ (p.lend i now).loans.map (·.id) :=
  List.mem_map.2 ⟨i.lent, List.mem_append_right _ List.mem_cons_self, rfl⟩

/-- What a request is lent was idle, and is on loan then. -/
theorem lends_serve (p : Pool) (key now : Nat) (waitedBefore : Bool) :
    Ensures (p.serve key now waitedBefore) fun r => ∀ id, r.1 = .lent id →
      id ∈ r.2.loans.map (·.id) ∧ id ∈ p.idle.map (·.id) := by
  rw [serve]
  split
  · exact ensures_pure fun id h => by cases h
  · refine (receives_checkOutAny p.permits p).bind fun r hr => ?_
    rcases r with ⟨_ | i, r⟩
    · dsimp only
      cases r.reserve? with
      | some q => exact ensures_pure fun id h => by cases h
      | none => exact ensures_pure fun id h => by cases h
    · refine ensures_pure fun id h => ?_
      obtain rfl := Progress.lent.inj h
      exact ⟨mem_loans_lend r i now, List.mem_map_of_mem (hr.2 i rfl).1⟩

theorem lends_resume (p : Pool) (key now : Nat) :
    Ensures (p.resume key now) fun r => ∀ id, r.1 = .lent id →
      id ∈ r.2.loans.map (·.id) ∧ id ∈ p.idle.map (·.id) := by
  rw [resume]
  refine (receives_checkOut _).bind fun r hr => ?_
  rcases r with ⟨_ | i, r⟩
  · refine (lends_serve r key now true).mono fun s hs id h => ?_
    obtain ⟨hloan, hidle⟩ := hs id h
    obtain ⟨j, hj, hid⟩ := List.mem_map.1 hidle
    exact ⟨hloan, List.mem_map.2 ⟨j, hr.1.idle_of_nil hj, hid⟩⟩
  · refine ensures_pure fun id h => ?_
    obtain rfl := Progress.lent.inj h
    exact ⟨mem_loans_lend r i now, List.mem_map_of_mem (hr.2 i rfl).1⟩

/-- What a request is lent that has waited for a creation came of that creation. -/
theorem lends_collect (p : Pool) (c : Creation) (outcome : Except InterpreterError Interpreter)
    (now : Nat) : Ensures (p.collect c outcome now) fun r => ∀ key id,
      r.1 = some (key, .lent id) →
        id ∈ r.2.loans.map (·.id) ∧ ∃ i, outcome = .ok i ∧ i.id = id := by
  unfold collect
  cases c.purpose with
  | none =>
    cases outcome with
    | error e => exact ensures_pure fun key id h => by cases h
    | ok i => exact (ensures_true _).bind fun _ _ => ensures_pure fun key id h => by cases h
  | some purpose =>
    cases outcome with
    | error e => cases purpose <;> exact ensures_pure fun key id h => by cases h
    | ok i =>
      cases purpose with
      | request key =>
        refine ensures_pure fun key' id h => ?_
        obtain rfl := Progress.lent.inj (Prod.mk.inj (Option.some.inj h)).2
        exact ⟨mem_loans_lend _ i now, i, rfl, rfl⟩
      | replacement =>
        exact (ensures_true _).bind fun _ _ => ensures_pure fun key id h => by cases h
      | growth =>
        exact (ensures_true _).bind fun _ _ => ensures_pure fun key id h => by cases h

namespace WarmTask

theorem lent?_ofProgress {progress : Progress} {id : Nat}
    (h : (ofProgress progress).lent? = some id) : progress = .lent id := by
  cases progress with
  | lent n => exact congrArg _ (Option.some.inj h)
  | _ => cases h

/-- **Whatever a task has, it was lent**: it had it before, or it is handed out now. -/
theorem Does.lent (hb : Balanced born p 0 0 []) (does : t.Does config key p w m t')
    (ha : m.Allowed p) (hrun : (m.apply p).run w = (q, w')) {id : Nat} (h : t'.lent? = some id) :
    t.lent? = some id ∨ t.lent? = none ∧ id ∈ handedOut p q := by
  have hout : id ∈ q.loans.map (·.id) → id ∈ p.idle.map (·.id) → id ∈ handedOut p q := by
    intro hloan hidle
    refine mem_handedOut.2 ⟨hloan, fun hp => ?_⟩
    obtain ⟨i, hi, rfl⟩ := List.mem_map.1 hidle
    obtain ⟨j, hj, hid⟩ := List.mem_map.1 hp
    exact hb.idle_ne_loan hi hj hid.symm
  cases does with
  | ask now =>
    obtain rfl := congrArg Prod.fst hrun
    obtain ⟨hloan, hidle⟩ := lends_serve _ key now false w id (lent?_ofProgress h)
    exact .inr ⟨rfl, hout hloan hidle⟩
  | resume now =>
    obtain rfl := congrArg Prod.fst hrun
    obtain ⟨hloan, hidle⟩ := lends_resume p key now w id (lent?_ofProgress h)
    exact .inr ⟨rfl, hout hloan hidle⟩
  | @collect c outcome now progress hp =>
    obtain rfl := congrArg Prod.fst hrun
    rw [lent?_ofProgress h] at hp
    obtain ⟨hloan, i, hok, hid⟩ := lends_collect p c outcome now w key id hp
    refine .inr ⟨rfl, mem_handedOut.2 ⟨hloan, fun hin => ?_⟩⟩
    obtain ⟨j, hj, hjid⟩ := List.mem_map.1 hin
    have hcid := (hb.ended c ha.1 i (hok ▸ ha.2)).1
    exact hb.creation_ne_loan ha.1 hj (hcid.symm.trans (hid.trans hjid.symm))
  | run script => exact .inl h
  | count bare => exact .inl h
  | countRan => exact .inl h
  | back now => exact .inl h
  | _ => cases h

/-- **A task counts what it has warmed up.** -/
theorem Does.counts (does : t.Does config key p w m t') :
    t'.warmed?.toList.length = t.warmed?.toList.length + m.notes := by
  have hnone : ∀ progress : Progress, (ofProgress progress).warmed? = none := by
    intro progress
    cases progress <;> rfl
  cases does with
  | ask now => rw [hnone]; rfl
  | resume now => rw [hnone]; rfl
  | collect h => rw [hnone]; rfl
  | _ => rfl

/-- A task has been lent what it has warmed up. -/
theorem lent?_of_warmed? {id : Nat} (h : t.warmed? = some id) : t.lent? = some id := by
  cases t with
  | counted n => exact h
  | finished n => exact h
  | _ => cases h

end WarmTask

/-! ## A batch

Tasks are counted against loans: an interpreter that several tasks have, or have warmed up, was lent
out as often as that. -/

theorem filterMap_append_cons {α β : Type} (f : α → Option β) (before : List α) (a : α)
    (after : List α) : (before ++ a :: after).filterMap f
      = before.filterMap f ++ ((f a).toList ++ after.filterMap f) := by
  rw [List.filterMap_append, List.filterMap_cons]
  cases f a <;> rfl

theorem count_warmed_le (ts : List WarmTask) (id : Nat) :
    (warmed ts).count id ≤ (ts.filterMap WarmTask.lent?).count id := by
  induction ts with
  | nil => exact Nat.le_refl _
  | cons t ts ih =>
    have hhead : t.warmed?.toList.count id ≤ t.lent?.toList.count id := by
      cases h : t.warmed? with
      | none => exact Nat.zero_le _
      | some n => rw [WarmTask.lent?_of_warmed? h]
    have hwarmed := filterMap_append_cons WarmTask.warmed? [] t ts
    have hlent := filterMap_append_cons WarmTask.lent? [] t ts
    simp only [List.nil_append, List.filterMap_nil] at hwarmed hlent
    rw [warmed, hwarmed, hlent, List.count_append, List.count_append]
    exact Nat.add_le_add hhead ih

/-- What is true of a batch at any moment. -/
structure Batch.Sound (start : Pool) (ts : List WarmTask) (d : List LoanEvent) (p : Pool) :
    Prop where
  size : ts.length = batchSize start.config
  /-- Every task that has warmed an interpreter up is counted once. -/
  counted : p.counters.prewarmed = (warmed ts).length
  /-- Every task has a loan of its own for what it has. -/
  lent : ∀ id, (ts.filterMap WarmTask.lent?).count id ≤ timesLent d id

/-- A step of a task keeps a batch sound. -/
theorem Batch.Sound.task {before after : List WarmTask}
    (h : Batch.Sound start (before ++ t :: after) d p) (hb : Balanced born p 0 0 [])
    (does : t.Does config key p w m t') (ha : m.Allowed p) (hrun : (m.apply p).run w = (q, w')) :
    Batch.Sound start (before ++ t' :: after) (loanEvents m.moment p q ++ d) q := by
  have hbq := Step.balanced hb ⟨ha, w, w', hrun⟩
  refine ⟨by rw [← h.size, List.length_append, List.length_append]; rfl, ?_, fun id => ?_⟩
  · have hcounted := h.counted
    have hnotes := does.counts
    rw [((Move.counts p m).of_run hrun).2]
    simp only [warmed, filterMap_append_cons, List.length_append] at hcounted ⊢
    omega
  · have hlent := h.lent id
    have htask : t'.lent?.toList.count id
        ≤ (if id ∈ handedOut p q then 1 else 0) + t.lent?.toList.count id := by
      by_cases ht' : t'.lent? = some id
      · have hone : t'.lent?.toList.count id = 1 := by
          rw [ht', Option.toList_some, List.count_singleton_self]
        rcases does.lent hb ha hrun ht' with ht | ⟨-, hout⟩
        · rw [ht', ht]
          exact Nat.le_add_left _ _
        · rw [hone, if_pos hout]
          exact Nat.le_add_right _ _
      · have hzero : t'.lent?.toList.count id = 0 :=
          List.count_eq_zero_of_not_mem fun hin => ht' (Option.mem_toList.1 hin)
        rw [hzero]
        exact Nat.zero_le _
    rw [timesLent_loanEvents hbq.nodup_loans]
    simp only [filterMap_append_cons, List.count_append] at hlent ⊢
    omega

/-- Nothing was warmed up before. -/
theorem Opening.prewarmed (h : Opening config opened p) : p.counters.prewarmed = 0 :=
  congrArg Standing.prewarmed h.standing

/-- **Every task counts once, for a loan of its own**, at any moment of a batch. -/
theorem Batch.sound (h : Batch start ts ms d p) (ho : Opened config opened start) :
    Batch.Sound start ts d p := by
  induction h with
  | start =>
    have hnone : ∀ (f : WarmTask → Option Nat), f .fresh = none →
        (List.replicate (batchSize start.config) WarmTask.fresh).filterMap f = [] := fun f hf =>
      List.filterMap_eq_nil_iff.2 fun t ht => (List.eq_of_mem_replicate ht).symm ▸ hf
    refine ⟨List.length_replicate, ?_, fun id => ?_⟩
    · rw [ho.1.prewarmed, warmed, hnone _ rfl]
      rfl
    · rw [hnone _ rfl]
      exact Nat.zero_le _
  | task h does allowed run ih => exact ih.task (h.diary.run ho).balanced does allowed run
  | detach h ih =>
    refine ⟨?_, ?_, fun id => ?_⟩
    · rw [← ih.size, List.length_append, List.length_append]
      rfl
    · have hcounted := ih.counted
      simp only [warmed, filterMap_append_cons] at hcounted ⊢
      exact hcounted
    · have hlent := ih.lent id
      simp only [filterMap_append_cons] at hlent ⊢
      exact hlent
  | @other ts ms d p q m h silent s ih =>
    have hbq := s.balanced (h.diary.run ho).balanced
    obtain ⟨-, w, w', hrun⟩ := s
    refine ⟨ih.size, ?_, fun id => ?_⟩
    · rw [((Move.counts p m).of_run hrun).2, silent, ih.counted]
      rfl
    · rw [timesLent_loanEvents hbq.nodup_loans]
      exact Nat.le_add_left_of_le (ih.lent id)

/-! ## What the number says -/

/-- What the number of warmed interpreters says, at a moment of a batch. -/
structure Batch.Tells (config : PoolConfig) (ts : List WarmTask) (d : List LoanEvent) (p : Pool) :
    Prop where
  /-- It is how many tasks have warmed an interpreter up. -/
  tasks : p.counters.prewarmed = (warmed ts).length
  size : p.counters.prewarmed ≤ batchSize config.normalized
  /-- An interpreter was warmed up no more often than it was lent out. -/
  loans : ∀ id, (warmed ts).count id ≤ timesLent d id
  /-- There are at least as many interpreters as different ones were warmed up. -/
  created : (warmed ts).dedup.length ≤ p.counters.created
  /-- As long as nothing was discarded, all that were warmed up are there. -/
  here : p.counters.destroyed = 0 → ∀ id ∈ warmed ts, id ∈ (p.idle ++ p.loans).map (·.id)
  live : p.counters.destroyed = 0 → (warmed ts).dedup.length ≤ p.idle.length + p.loans.length
  /-- If no interpreter was lent out again, each task has warmed up another one. -/
  distinct : (∀ id, timesLent d id ≤ 1) → (warmed ts).Nodup
    ∧ p.counters.prewarmed ≤ p.counters.created
    ∧ (p.counters.destroyed = 0 → p.counters.prewarmed ≤ p.idle.length + p.loans.length)

/-- **What the number of warmed interpreters says**, at any moment of any batch, and so when the
batch is over: how many tasks have warmed one up.  Several tasks may have warmed up the same one, if
it came back before the next of them asked.  Then there need not be so many interpreters; but there
are as many as different ones were warmed up, and that is the number if none was lent out twice. -/
theorem warmed_of_batch (ho : Opened config opened start) (h : Batch start ts ms d p) :
    Batch.Tells config ts d p := by
  have hrun := h.diary.run ho
  have hsound := h.sound ho
  obtain ⟨known, hknown⟩ := h.diary.exists_known ho
  have hloans : ∀ id, (warmed ts).count id ≤ timesLent d id := fun id =>
    Nat.le_trans (count_warmed_le ts id) (hsound.lent id)
  have hmem : ∀ id ∈ warmed ts, id ∈ known := fun id hid =>
    hknown.lent id (Nat.ne_of_gt (Nat.lt_of_lt_of_le (List.count_pos_iff.2 hid) (hloans id)))
  have hcreated : (warmed ts).dedup.length ≤ p.counters.created := by
    rw [← hknown.length]
    exact (List.subperm_of_subset (List.nodup_dedup _) fun id hid =>
      hmem id (List.mem_dedup.1 hid)).length_le
  have hconserved := hrun.ledger.conserved
  have hlive : p.counters.destroyed = 0 → p.counters.created = p.idle.length + p.loans.length :=
    fun h0 => by omega
  have hsize : (warmed ts).length ≤ ts.length := List.length_filterMap_le _ _
  refine ⟨hsound.counted, ?_, hloans, hcreated, fun h0 id hid => ?_, fun h0 => hlive h0 ▸ hcreated,
    fun hone => ?_⟩
  · rw [hsound.counted, ← ho.1.config, ← hsound.size]
    exact hsize
  · exact hknown.all_here hrun.balanced (hlive h0) (hmem id hid)
  · have hnodup : (warmed ts).Nodup :=
      List.nodup_iff_count_le_one.2 fun id => Nat.le_trans (hloans id) (hone id)
    rw [hsound.counted]
    rw [hnodup.dedup] at hcreated
    exact ⟨hnodup, hcreated, fun h0 => hlive h0 ▸ hcreated⟩

/-- A configuration for so many interpreters besides the first, all of which are to be warmed up. -/
def warmMore (n : Nat) : PoolConfig :=
  { pair with maxSize := n + 1, enablePreWarming := true, preWarmOnInit := n + 1 }

/-- The first task has handed its interpreter back before the second one asks, and that one gets it
again.  Both tasks count it, and the batch is over with one interpreter in the pool. -/
theorem warmed_of_batch_again : ∃ start ts ms d p, Opened (warmMore 1) [firstMade] start
    ∧ Batch start ts ms d p ∧ ts.all WarmTask.isOver = true ∧ warmed ts = [1, 1]
    ∧ p.counters.prewarmed = 2 ∧ p.counters.created = 1 ∧ p.counters.destroyed = 0
    ∧ p.idle.length + p.loans.length = 1
    ∧ (warmed ts).dedup.length ≤ p.idle.length + p.loans.length := by
  have hopening : Opening (warmMore 1) [firstMade] _ :=
    @Opening.more (warmMore 1) [] _ _ _ firstMade 0 default _ (.empty rfl) Nat.zero_lt_one rfl rfl
      rfl
  have ho : Opened (warmMore 1) [firstMade] _ := ⟨hopening, Nat.le_refl _⟩
  have h₀ : Batch _ ([] ++ .fresh :: [.fresh]) [] [] _ := ho.batch
  have h₁ := h₀.task (w := default) (.ask 0) List.not_mem_nil rfl
  have h₂ := h₁.task (w := default) (.count rfl) trivial rfl
  have h₃ := h₂.task (w := default) (.back 0) List.mem_cons_self rfl
  change Batch _ ([.finished (some 1)] ++ .fresh :: []) _ _ _ at h₃
  have h₄ := h₃.task (w := default) (.ask 0) List.not_mem_nil rfl
  have h₅ := h₄.task (w := default) (.count rfl) trivial rfl
  have h₆ := h₅.task (w := default) (.back 0) List.mem_cons_self rfl
  have htells := warmed_of_batch ho h₆
  exact ⟨_, _, _, _, _, ho, h₆, rfl, rfl, htells.tasks, rfl, rfl, rfl, htells.live rfl⟩

/-! ## There is no bound

The tasks come one after the other here, each of them when the last one has handed its interpreter
back.  There is only that one to be had, so all of them are lent it. -/

/-- A pool whose only interpreter, the first, is idle; it has been lent out so many times. -/
def lone (n uses : Nat) (wasReset : Bool) (base : Pool) : Pool :=
  { base with
    config := (warmMore n).normalized
    idle := [{ firstMade with useCount := uses, wasReset := wasReset }]
    loans := [], permits := 1, waiters := [], granted := [], creations := []
    closed := false, drained := false }

/-- The pool is opened with one interpreter. -/
theorem exists_opened_lone (n : Nat) : ∃ base, Opened (warmMore n) [firstMade] (lone n 0 false base)
    ∧ base.counters.created = 1 ∧ base.counters.destroyed = 0 := by
  have hmin : (warmMore n).normalized.minSize = 1 := Nat.min_eq_left (Nat.succ_pos n)
  have hvalid : (warmMore n).normalized.validate = .ok () := by
    have hpair : pair.normalized.validate = .ok () := by decide +kernel
    exact PoolConfig.validate_eq_ok.2 { PoolConfig.validate_eq_ok.1 hpair with
      maxSize_ne_zero := Nat.succ_ne_zero n
      minSize_le_maxSize := hmin ▸ Nat.succ_pos n }
  obtain ⟨e, he⟩ := PoolConfig.ofConfig_of_validate hvalid
  obtain ⟨memory, rfl⟩ := ofConfig_eq_ok he
  have hopening : Opening (warmMore n) [firstMade] _ :=
    @Opening.more (warmMore n) [] _ _ _ firstMade 0 default _ (.empty he) (hmin ▸ Nat.zero_lt_one)
      (if_pos (Nat.succ_pos n)) rfl rfl
  exact ⟨_, ⟨hopening, hmin.le⟩, rfl, rfl⟩

/-- The next task is lent the only interpreter, counts it and hands it back. -/
theorem Batch.warm_lone {n uses : Nat} {wasReset : Bool} {base : Pool}
    {before after : List WarmTask}
    (h : Batch start (before ++ .fresh :: after) ms d (lone n uses wasReset base))
    (bare : start.config.preWarmScript = none) :
    ∃ ms d base', Batch start (before ++ .finished (some 1) :: after) ms d
        (lone n (uses + 1) true base')
      ∧ base'.counters.created = base.counters.created
      ∧ base'.counters.destroyed = base.counters.destroyed := by
  have h₁ := h.task (w := default) (.ask 0) List.not_mem_nil rfl
  have h₂ := h₁.task (w := default) (.count bare) trivial rfl
  have h₃ := h₂.task (w := default) (.back 0) List.mem_cons_self rfl
  exact ⟨_, _, _, h₃, rfl, rfl⟩

/-- One task after the other does so. -/
theorem Batch.warm_all {n : Nat} (bare : start.config.preWarmScript = none) (k : Nat) :
    ∀ {before : List WarmTask} {uses : Nat} {wasReset : Bool} {base : Pool} {ms : List Move}
      {d : List LoanEvent},
      Batch start (before ++ List.replicate k .fresh) ms d (lone n uses wasReset base) →
      ∃ ms d uses wasReset base', Batch start (before ++ List.replicate k (.finished (some 1))) ms d
          (lone n uses wasReset base')
        ∧ base'.counters.created = base.counters.created
        ∧ base'.counters.destroyed = base.counters.destroyed := by
  induction k with
  | zero => exact fun h => ⟨_, _, _, _, _, h, rfl, rfl⟩
  | succ k ih =>
    intro before uses wasReset base ms d h
    obtain ⟨ms₁, d₁, base₁, h₁, hcreated, hdestroyed⟩ := h.warm_lone bare
    rw [List.append_cons] at h₁
    obtain ⟨ms₂, d₂, uses₂, wasReset₂, base₂, h₂, hcreated₂, hdestroyed₂⟩ := ih h₁
    rw [List.append_assoc] at h₂
    exact ⟨ms₂, d₂, uses₂, wasReset₂, base₂, h₂, hcreated₂.trans hcreated,
      hdestroyed₂.trans hdestroyed⟩

/-- **Any number of tasks may warm up the same interpreter**, and each counts it: a batch can be
over with one interpreter in the pool, although none was discarded. -/
theorem exists_batch_one (n : Nat) : ∃ start ms d p, Opened (warmMore n) [firstMade] start
    ∧ Batch start (List.replicate (n + 1) (.finished (some 1))) ms d p
    ∧ p.counters.prewarmed = n + 1 ∧ p.counters.created = 1 ∧ p.counters.destroyed = 0 := by
  obtain ⟨base, ho, hcreated, hdestroyed⟩ := exists_opened_lone n
  have hsize : batchSize (warmMore n).normalized = n + 1 := Nat.min_self (n + 1)
  have hbare : (lone n 0 false base).config.preWarmScript = none := rfl
  have h₀ : Batch _ ([] ++ List.replicate (n + 1) .fresh) [] [] (lone n 0 false base) :=
    hsize ▸ ho.batch
  obtain ⟨ms, d, uses, wasReset, base', h, hcreated', hdestroyed'⟩ := Batch.warm_all hbare _ h₀
  refine ⟨_, _, _, _, ho, h, ?_, hcreated'.trans hcreated, hdestroyed'.trans hdestroyed⟩
  have hone : WarmTask.warmed? (.finished (some 1)) = some 1 := rfl
  rw [(h.sound ho).counted, List.nil_append, warmed, List.filterMap_replicate_of_some hone,
    List.length_replicate]

end Pool

/-! ## What a service does

Tasks of the batch are ordinary requests to a service, so what was said about batches is about the
programs that a service runs. -/

namespace Service

variable {s : Service} {v w : World} {p : Pool} {r : Request} {id : Nat}

/-- The request of a task of the batch, `key` being its key. -/
def warmRequest (script : Option Script) (limit : Duration) (key : Nat) : Request :=
  { key, errand := .warm script, limit, deadline := limit.nanos }

/-- **A service has as many tasks as there are to be**, each with a key of its own. -/
theorem run_addWarming (script : Option Script) (limit : Duration) (n : Nat) : ∀ s : Service,
    ((addWarming script limit n).run s).run v = (((), { s with
      requests := s.requests
        ++ (List.range' s.nextKey n).map fun key => warmRequest script limit key
      nextKey := s.nextKey + n }), v) := by
  induction n with
  | zero =>
    intro s
    rw [List.range'_zero, List.map_nil, List.append_nil]
    rfl
  | succ n ih =>
    intro s
    have hkey : (newKey.run s).run v = ((s.nextKey, { s with nextKey := s.nextKey + 1 }), v) := rfl
    rw [addWarming, run_bind_eq hkey]
    refine (ih _).trans ?_
    rw [List.range'_succ, List.map_cons, List.append_assoc, Nat.add_assoc, Nat.add_comm 1 n]
    rfl

/-- The requests of the tasks of a batch, the first of which has the key. -/
def warmRequests (language : Language) (c : PoolConfig) (key : Nat) : List Request :=
  (List.range' key (Pool.batchSize c)).map
    (warmRequest (c.preWarmScript.map language.read) c.preWarmTimeout)

/-- **A service has the tasks of a batch** when it was launched. -/
theorem requests_launch (s : Service) (v : World) :
    ((launch.run s).run v).1.2.requests
      = s.requests ++ warmRequests v.language s.pool.config s.nextKey := by
  -- setting the timers changes neither the requests nor the keys
  have htasks : ∀ c : PoolConfig, ∀ t : Service, t.requests = s.requests → t.nextKey = s.nextKey →
      (((if c.enablePreWarming then
          addWarming (c.preWarmScript.map v.language.read) c.preWarmTimeout c.preWarmOnInit
        else pure () : Move Unit).run t).run v).1.2.requests
        = s.requests ++ warmRequests v.language c s.nextKey := by
    intro c t hrequests hkey
    rw [warmRequests, Pool.batchSize]
    split
    · rw [run_addWarming, hrequests, hkey]
    · rw [List.range'_zero, List.map_nil, List.append_nil]
      exact hrequests
  have hget : ((get : Move Service).run s).run v = ((s, s), v) := rfl
  have hsweep : ((modify fun t : Service => { t with
      nextSweep := s.pool.config.cleanupInterval.nanos } : Move Unit).run s).run v
      = (((), { s with nextSweep := s.pool.config.cleanupInterval.nanos }), v) := rfl
  rw [launch, run_bind_eq hget, run_bind_eq hsweep]
  cases s.pool.config.enablePredictiveScaling with
  | false => exact htasks _ _ rfl rfl
  | true => exact htasks _ _ rfl rfl

/-- With a script, it runs it, and then it is known whether that was a success. -/
theorem run_runScript_of_warm {script : Option Script} (hr : r.errand = .warm script)
    {result : Option (Except InterpreterError (List GuestValue))}
    (huse : (s.pool.onLoan id fun i => i.run (script.getD [])).run v = ((result, p), w)) :
    ((runScript r id).run s).run v = (((), { s with
      pool := p
      requests := s.requests.map fun other => if other.key == r.key then
        { other with stage := .worked id (Pool.WarmTask.succeeded result) } else other }), w) := by
  rw [runScript, hr]
  dsimp only
  rw [run_bind_eq (run_onPool huse)]
  rcases result with _ | _ | _ <;> rfl

/-- After a success, it counts its interpreter; it hands it back either way. -/
theorem run_warmed {succeeded : Bool}
    (hback : ((if succeeded then s.pool.notePrewarmed else s.pool).giveBack id s.now).run v
      = (p, w)) :
    ((warmed r id succeeded).run s).run v = (((), { s with
      pool := p
      requests := s.requests.filter fun other => other.key != r.key }), w) := by
  cases succeeded with
  | false =>
    rw [warmed]
    exact (run_bind_eq (run_giveBack hback)).trans rfl
  | true =>
    have hcount : ((changePool fun p => pure p.notePrewarmed).run s).run v
        = (((), { s with pool := s.pool.notePrewarmed }), v) := rfl
    have hgive : ((giveBack id).run { s with pool := s.pool.notePrewarmed }).run v = _ :=
      run_giveBack hback
    rw [warmed, if_pos rfl, run_bind_eq hcount, run_bind_eq hgive]
    rfl

/-- Without a script, a task goes on at once as after a success. -/
theorem obtained_of_warm (hr : r.errand = .warm none) : obtained r id = warmed r id true := by
  rw [obtained, hr]
  rfl

end Service
end ScriptPool
