import ScriptPool.Proofs.Interpreter.Dealing
import ScriptPool.Proofs.Pool.Accounts
import ScriptPool.Proofs.Pool.Traffic

/-!
# Every interpreter that is handed out is clean

An interpreter gets into the queue when it has just been made or when it was handed back, and it
leaves the queue only to be lent out or discarded.  So what is checked on its way in is still true
of it when it is handed out.

Two things are assumed: interpreters are ready when they are made, which new ones are
(`World.ready_newInterpreter`), and whatever is done with those on loan is a `Dealing`, so that
nobody breaks down in the middle of a run.

## What is here

* `Path` — a run from any state, with a record of the interpreters that are handed out.
* `Orderly` — what is true of every interpreter in the pool, with the number of its loans read off
  the record; `Orderly.step` says that one move keeps it.
* `Retired` — an interpreter that will never be handed out again; `Retired.step` says that it will
  not.
* `clean_of_path` — **every idle interpreter is clean, an interpreter with an aborted run is never
  handed out again, and none serves more loans than the configuration allows**.
-/

set_option autoImplicit false

namespace ScriptPool
namespace Pool

open Transition

/-! ## Records -/

/-- The interpreters that a move has handed out: on loan now, and not before. -/
def handedOut (p q : Pool) : List Nat :=
  (q.loans.map (·.id)).filter fun id => id ∉ p.loans.map (·.id)

/-- A run from a pool, with the moves and the interpreters handed out, the latest first. -/
inductive Path (start : Pool) : List Move → List Nat → Pool → Prop where
  | refl : Path start [] [] start
  | step {ms : List Move} {log : List Nat} {p q : Pool} {m : Move} (h : Path start ms log p)
      (s : Step p m q) : Path start (m :: ms) (handedOut p q ++ log) q

variable {config : PoolConfig} {opened : List Interpreter} {ms : List Move} {log : List Nat}
  {start p q : Pool} {m : Move} {i : Interpreter} {id : Nat}

theorem Path.run (h : Path start ms log p) (ho : Opened config opened start) :
    Run config opened ms p := by
  induction h with
  | refl => exact .start ho
  | step _ s ih => exact ih.step s

/-- The record of a pool that has just been opened is empty. -/
theorem Opened.path (_ : Opened config opened p) : Path p [] [] p := .refl

/-- Every run has a record. -/
theorem Run.exists_path (h : Run config opened ms p) :
    ∃ start log, Opened config opened start ∧ Path start ms log p := by
  induction h with
  | start h => exact ⟨_, [], h, h.path⟩
  | step _ s ih =>
    obtain ⟨start, log, ho, h⟩ := ih
    exact ⟨start, _, ho, h.step s⟩

/-! ## One interpreter, one place -/

section Places

variable {born : List Interpreter}

theorem Balanced.numbered (h : Balanced born p 0 0 []) : Numbered p.nextId p.numbers := h.numbers

theorem Balanced.idle_ne_loan (h : Balanced born p 0 0 []) {i j : Interpreter} (hi : i ∈ p.idle)
    (hj : j ∈ p.loans) : i.id ≠ j.id :=
  (List.nodup_append.1 h.numbered.nodup.of_append_left).2.2 _ (List.mem_map_of_mem hi) _
    (List.mem_map_of_mem hj)

theorem Balanced.creation_ne_loan (h : Balanced born p 0 0 []) {c : Creation} {j : Interpreter}
    (hc : c ∈ p.creations) (hj : j ∈ p.loans) : c.id ≠ j.id :=
  ((List.nodup_append.1 h.numbered.nodup).2.2 _ (List.mem_append_right _ (List.mem_map_of_mem hj)) _
    (List.mem_map_of_mem hc)).symm

theorem Balanced.nodup_loans (h : Balanced born p 0 0 []) : (p.loans.map (·.id)).Nodup :=
  h.numbered.nodup.of_append_left.of_append_right

theorem Balanced.loan_lt (h : Balanced born p 0 0 []) (hi : i ∈ p.loans) : i.id < p.nextId :=
  h.numbered.lt _ (List.mem_append_left _ (List.mem_append_right _ (List.mem_map_of_mem hi)))

end Places

theorem mem_handedOut :
    id ∈ handedOut p q ↔ id ∈ q.loans.map (·.id) ∧ id ∉ p.loans.map (·.id) := by
  rw [handedOut, List.mem_filter, decide_eq_true_iff]

/-- What is handed out is on loan then. -/
theorem exists_loan_of_handedOut (h : id ∈ handedOut p q) : ∃ i ∈ q.loans, i.id = id :=
  List.mem_map.1 (mem_handedOut.1 h).1

/-- Nobody is handed out twice at once. -/
theorem count_handedOut (hq : (q.loans.map (·.id)).Nodup) (id : Nat) :
    (handedOut p q).count id = if id ∈ handedOut p q then 1 else 0 := by
  split
  · rename_i hid
    exact List.count_eq_one_of_mem (hq.sublist List.filter_sublist) hid
  · rename_i hid
    exact List.count_eq_zero_of_not_mem hid

theorem count_handedOut_append (hq : (q.loans.map (·.id)).Nodup) (log : List Nat) (id : Nat) :
    (handedOut p q ++ log).count id = (if id ∈ handedOut p q then 1 else 0) + log.count id := by
  rw [List.count_append, count_handedOut hq]

theorem Balanced.not_handedOut_of_idle {born : List Interpreter} (hq : Balanced born q 0 0 [])
    (hi : i ∈ q.idle) : i.id ∉ handedOut p q := fun hout => by
  obtain ⟨j, hj, hid⟩ := exists_loan_of_handedOut hout
  exact hq.idle_ne_loan hi hj hid.symm

theorem Balanced.not_handedOut_of_creation {born : List Interpreter} (hq : Balanced born q 0 0 [])
    {c : Creation} (hc : c ∈ q.creations) : c.id ∉ handedOut p q := fun hout => by
  obtain ⟨j, hj, hid⟩ := exists_loan_of_handedOut hout
  exact hq.creation_ne_loan hc hj hid.symm

/-! ## What is true of every interpreter in the pool

The invariant compares what an interpreter knows about itself, what the pool knows and what the
record says, and a step is proved clause by clause: whatever is in a place after a move was there
before, or it is known where it comes from. -/

/-- The interpreters in a pool are in order, `log` being the record of those that were handed out.
-/
structure Orderly (opened : List Interpreter) (ms : List Move) (log : List Nat) (p : Pool) :
    Prop where
  untainted : ∀ i ∈ p.idle, i.tainted = none
  resting : ∀ i ∈ p.idle ++ p.loans, i.executing = false
  fresh : ∀ i ∈ p.idle, ∀ n, p.config.maxUses = some n → i.useCount < max n 1
  /-- An interpreter knows how often it was handed out. -/
  uses : ∀ i ∈ p.idle ++ p.loans, i.useCount = log.count i.id
  limit : ∀ n, p.config.maxUses = some n → ∀ id, log.count id ≤ max n 1
  /-- What came of a creation is as it was made. -/
  ended : ∀ c ∈ p.creations, ∀ i, c.outcome = some (.ok i) → i ∈ madeIn opened ms
  unlent : ∀ c ∈ p.creations, c.id ∉ log
  lent : ∀ i ∈ p.loans, i.id ∈ log
  lt : ∀ id ∈ log, id < p.nextId
  /-- Only what was handed out has been used. -/
  used : ∀ id use, Move.onLoan id use ∈ ms → id ∈ log

/-- All that borrowers do is a dealing. -/
def Dealt (ms : List Move) : Prop := ∀ id use, Move.onLoan id use ∈ ms → ∃ d : Dealing, use = d.use

/-- An interpreter on loan has the number that was asked for. -/
theorem loan?_eq_some (h : p.loan? id = some i) : i ∈ p.loans ∧ i.id = id :=
  ⟨List.mem_of_find?_eq_some h, by simpa using List.find?_some h⟩

theorem mem_madeIn_cons (h : i ∈ madeIn opened ms) : i ∈ madeIn opened (m :: ms) := by
  rcases List.mem_append.1 h with h | h
  · exact List.mem_append_left _ ((List.sublist_cons_self m ms).filterMap _ |>.subset h)
  · exact List.mem_append_right _ h

section Step

variable {born : List Interpreter}

/-- What came of a creation is ready, and nobody was lent it yet. -/
theorem Orderly.made (h : Orderly opened ms log p) (hb : Balanced born p 0 0 [])
    (hready : ∀ i ∈ madeIn opened ms, i.Ready) {c : Creation} (hc : c ∈ p.creations)
    (ho : c.outcome = some (.ok i)) : i.Ready ∧ i.id = c.id ∧ log.count i.id = 0 := by
  have hid := (hb.ended c hc i ho).1
  refine ⟨hready i (h.ended c hc i ho), hid, List.count_eq_zero_of_not_mem ?_⟩
  rw [hid]
  exact h.unlent c hc

/-- An interpreter that is idle after a move is clean. -/
theorem Orderly.idle_step (h : Orderly opened ms log p) (hb : Balanced born p 0 0 [])
    (s : Step p m q) (hready : ∀ i ∈ madeIn opened ms, i.Ready) (hi : i ∈ q.idle) :
    i.tainted = none ∧ i.executing = false ∧ i.useCount = log.count i.id
      ∧ ∀ n, p.config.maxUses = some n → i.useCount < max n 1 := by
  obtain ⟨ha, w, w', hrun⟩ := s
  rcases Move.mem_idle ha hrun hi with hi | hi
  · exact ⟨h.untainted i hi, h.resting i (List.mem_append_left _ hi),
      h.uses i (List.mem_append_left _ hi), h.fresh i hi⟩
  · cases hi with
    | made hc ho =>
      obtain ⟨hr, -, hcount⟩ := h.made hb hready hc ho
      exact ⟨hr.untainted, hr.resting, hr.unused.trans hcount.symm,
        fun n _ => hr.unused ▸ Nat.lt_of_lt_of_le Nat.zero_lt_one (Nat.le_max_right n 1)⟩
    | @back id now j hj fresh untainted =>
      have hmem := List.mem_append_right p.idle (loan?_eq_some hj).1
      refine ⟨untainted, h.resting j hmem, h.uses j hmem, fun n hn => ?_⟩
      rw [isWorn, hn] at fresh
      exact Nat.lt_of_lt_of_le (Nat.not_le.1 (of_decide_eq_false fresh)) (Nat.le_max_left n 1)

/-- An interpreter that is on loan after a move was on loan before, or it is handed out. -/
theorem Orderly.loan_step (h : Orderly opened ms log p) (hb : Balanced born p 0 0 [])
    (s : Step p m q) (hready : ∀ i ∈ madeIn opened ms, i.Ready) (hdealt : Dealt (m :: ms))
    (hi : i ∈ q.loans) : i.executing = false
      ∧ (i.id ∈ log ∧ i.id ∉ handedOut p q ∧ i.useCount = log.count i.id
        ∨ i.id ∈ handedOut p q ∧ i.useCount = log.count i.id + 1
          ∧ ∀ n, p.config.maxUses = some n → i.useCount ≤ max n 1) := by
  have hmem := List.mem_map_of_mem (f := (·.id)) hi
  have hbefore : ∀ {j : Interpreter}, j ∈ p.loans → j.executing = false
      ∧ (j.id ∈ log ∧ j.id ∉ handedOut p q ∧ j.useCount = log.count j.id) := fun hj =>
    ⟨h.resting _ (List.mem_append_right _ hj), h.lent _ hj,
      fun hout => (mem_handedOut.1 hout).2 (List.mem_map_of_mem hj),
      h.uses _ (List.mem_append_right _ hj)⟩
  obtain ⟨ha, w, w', hrun⟩ := s
  rcases Move.mem_loans ha hrun hi with hi | hi | ⟨id, use, j, rfl, hj, rfl⟩
  · obtain ⟨hexec, hin⟩ := hbefore hi
    exact ⟨hexec, .inl hin⟩
  · cases hi with
    | @idle _ j hj resting =>
      refine ⟨resting, .inr ⟨mem_handedOut.2 ⟨hmem, fun hl => ?_⟩, ?_, fun n hn => h.fresh j hj n hn⟩⟩
      · obtain ⟨k, hk, hid⟩ := List.mem_map.1 hl
        exact hb.idle_ne_loan hj hk hid.symm
      · exact congrArg (· + 1) (h.uses j (List.mem_append_left _ hj))
    | @made c j now hc ho =>
      obtain ⟨hr, hid, hcount⟩ := h.made hb hready hc ho
      have hone : j.lent.useCount = 1 := congrArg (· + 1) hr.unused
      refine ⟨hr.resting, .inr ⟨mem_handedOut.2 ⟨hmem, fun hl => ?_⟩, ?_, fun n _ => ?_⟩⟩
      · obtain ⟨k, hk, hkid⟩ := List.mem_map.1 hl
        exact hb.creation_ne_loan hc hk (hid.symm.trans hkid.symm)
      · rw [hone, Interpreter.lent_id, hcount]
      · exact hone ▸ Nat.le_max_right n 1
  · obtain ⟨d, rfl⟩ := hdealt id use List.mem_cons_self
    obtain ⟨tainted, hk, -⟩ := d.ensures_use j w
    rw [hk]
    obtain ⟨hexec, hin⟩ := hbefore (loan?_eq_some hj).1
    exact ⟨hexec, .inl hin⟩

/-- The record counts the loans of every interpreter that is in the pool after a move. -/
theorem Orderly.uses_step (h : Orderly opened ms log p) (hb : Balanced born p 0 0 [])
    (s : Step p m q) (hready : ∀ i ∈ madeIn opened ms, i.Ready) (hdealt : Dealt (m :: ms))
    (hi : i ∈ q.idle ++ q.loans) : i.useCount = (handedOut p q ++ log).count i.id := by
  have hbq := s.balanced hb
  rw [count_handedOut_append hbq.nodup_loans]
  rcases List.mem_append.1 hi with hi | hi
  · rw [if_neg (hbq.not_handedOut_of_idle hi), Nat.zero_add]
    exact (h.idle_step hb s hready hi).2.2.1
  · rcases (h.loan_step hb s hready hdealt hi).2 with ⟨-, hout, huses⟩ | ⟨hout, huses, -⟩
    · rw [if_neg hout, huses, Nat.zero_add]
    · rw [if_pos hout, huses, Nat.add_comm]

/-- A move hands nobody out more often than the configuration allows. -/
theorem Orderly.limit_step (h : Orderly opened ms log p) (hb : Balanced born p 0 0 [])
    (s : Step p m q) (hready : ∀ i ∈ madeIn opened ms, i.Ready) (hdealt : Dealt (m :: ms)) {n : Nat}
    (hn : p.config.maxUses = some n) (id : Nat) : (handedOut p q ++ log).count id ≤ max n 1 := by
  by_cases hout : id ∈ handedOut p q
  · -- it is on loan now, so it knows itself how often it was handed out
    obtain ⟨i, hi, rfl⟩ := exists_loan_of_handedOut hout
    rw [← h.uses_step hb s hready hdealt (List.mem_append_right _ hi)]
    rcases (h.loan_step hb s hready hdealt hi).2 with ⟨-, hnot, -⟩ | ⟨-, -, hle⟩
    · exact absurd hout hnot
    · exact hle n hn
  · rw [count_handedOut_append (s.balanced hb).nodup_loans, if_neg hout, Nat.zero_add]
    exact h.limit n hn id

/-- **One move keeps the interpreters in order.** -/
theorem Orderly.step (h : Orderly opened ms log p) (hb : Balanced born p 0 0 []) (s : Step p m q)
    (hready : ∀ i ∈ madeIn opened ms, i.Ready) (hdealt : Dealt (m :: ms)) :
    Orderly opened (m :: ms) (handedOut p q ++ log) q := by
  have hbq := s.balanced hb
  have hidle : ∀ i ∈ q.idle, _ := fun i hi => h.idle_step hb s hready hi
  have hloan : ∀ i ∈ q.loans, _ := fun i hi => h.loan_step hb s hready hdealt hi
  have huses : ∀ i ∈ q.idle ++ q.loans, _ := fun i hi => h.uses_step hb s hready hdealt hi
  have hlimit : ∀ n, p.config.maxUses = some n → _ := fun n hn =>
    h.limit_step hb s hready hdealt hn
  obtain ⟨ha, w, w', hrun⟩ := s
  have hconfig : q.config = p.config := (Move.config p m).of_run hrun
  obtain ⟨hnext, hcreations⟩ := Move.mem_creations ha hrun
  constructor
  case untainted => exact fun i hi => (hidle i hi).1
  case resting =>
    intro i hi
    rcases List.mem_append.1 hi with hi | hi
    · exact (hidle i hi).2.1
    · exact (hloan i hi).1
  case fresh =>
    intro i hi n hn
    exact (hidle i hi).2.2.2 n (hconfig ▸ hn)
  case uses => exact huses
  case limit => exact fun n hn => hlimit n (hconfig ▸ hn)
  case ended =>
    intro c hc i ho
    cases hcreations c hc with
    | same hd hid houtcome =>
      exact mem_madeIn_cons (h.ended _ hd i (houtcome ▸ ho))
    | ended hd hid is houtcome =>
      obtain rfl := Option.some.inj (houtcome.symm.trans ho)
      rw [is]
      exact List.mem_cons_self
    | begun hid houtcome =>
      rw [houtcome] at ho
      cases ho
  case unlent =>
    intro c hc hin
    rcases List.mem_append.1 hin with hout | hin
    · exact hbq.not_handedOut_of_creation hc hout
    · cases hcreations c hc with
      | same hd hid houtcome => exact h.unlent _ hd (hid ▸ hin)
      | ended hd hid is houtcome => exact h.unlent _ hd (hid ▸ hin)
      | begun hid houtcome => exact Nat.lt_irrefl _ (hid ▸ h.lt _ hin)
  case lent =>
    intro i hi
    rcases (hloan i hi).2 with ⟨hin, -, -⟩ | ⟨hout, -, -⟩
    · exact List.mem_append_right _ hin
    · exact List.mem_append_left _ hout
  case lt =>
    intro id hin
    rcases List.mem_append.1 hin with hout | hin
    · obtain ⟨j, hj, rfl⟩ := exists_loan_of_handedOut hout
      exact hbq.loan_lt hj
    · exact Nat.lt_of_lt_of_le (h.lt id hin) hnext
  case used =>
    intro id use hm
    refine List.mem_append_right _ ?_
    rcases List.mem_cons.1 hm with rfl | hm
    · obtain ⟨i, hi, rfl⟩ := List.mem_map.1 ha.1
      exact h.lent i hi
    · exact h.used id use hm

end Step

/-- The interpreters of a pool that has just been opened are in order. -/
theorem Orderly.of_opened (ho : Opened config opened p) (hready : ∀ i ∈ opened, i.Ready) :
    Orderly opened [] [] p := by
  obtain ⟨hidle, hloans, hcreations⟩ := ho.1.inside
  have hr : ∀ i ∈ p.idle, i.Ready := fun i hi => hready i (hidle hi)
  have hr' : ∀ i ∈ p.idle ++ p.loans, i.Ready := fun i hi => by
    rw [hloans, List.append_nil] at hi
    exact hr i hi
  exact {
    untainted := fun i hi => (hr i hi).untainted
    resting := fun i hi => (hr' i hi).resting
    fresh := fun i hi n _ =>
      (hr i hi).unused ▸ Nat.lt_of_lt_of_le Nat.zero_lt_one (Nat.le_max_right n 1)
    uses := fun i hi => (hr' i hi).unused
    limit := fun n _ id => Nat.zero_le _
    ended := fun c hc => absurd (hcreations ▸ hc) List.not_mem_nil
    unlent := fun c hc => absurd (hcreations ▸ hc) List.not_mem_nil
    lent := fun i hi => absurd (hloans ▸ hi) List.not_mem_nil
    lt := fun id hid => absurd hid List.not_mem_nil
    used := fun id use hm => absurd hm List.not_mem_nil }

theorem Dealt.tail (h : Dealt (m :: ms)) : Dealt ms := fun id use hm =>
  h id use (List.mem_cons_of_mem m hm)

/-- The interpreters of a pool are in order at any moment of any run. -/
theorem Path.orderly (h : Path start ms log p) (ho : Opened config opened start) :
    (∀ i ∈ madeIn opened ms, i.Ready) → Dealt ms → Orderly opened ms log p := by
  induction h with
  | refl => exact fun hready _ => .of_opened ho hready
  | step h s ih =>
    intro hready hdealt
    have hready' := fun i hi => hready i (mem_madeIn_cons hi)
    exact (ih hready' hdealt.tail).step (h.run ho).balanced s hready' hdealt

/-! ## Nothing has been run on an idle interpreter -/

/-- Nobody has done anything with an interpreter since it was made, or since it was handed back and
was reset.  Either way it is as it was then; that reset has succeeded, so it was not tainted. -/
def Untouched (config : PoolConfig) (opened : List Interpreter) (ms : List Move)
    (i : Interpreter) : Prop :=
  (i ∈ madeIn opened ms ∧ ∀ use, Move.onLoan i.id use ∉ ms)
  ∨ ∃ later now before q j, ms = later ++ .giveBack i.id now :: before ∧ Run config opened before q
    ∧ q.loan? i.id = some j ∧ j.tainted = none
    ∧ i = ({ j with wasReset := true } : Interpreter).handedBack now
    ∧ ∀ use, Move.onLoan i.id use ∉ later

/-- An interpreter that stays in the queue stays untouched. -/
theorem Untouched.cons (h : Untouched config opened ms i)
    (hm : ∀ use, m ≠ .onLoan i.id use) : Untouched config opened (m :: ms) i := by
  rcases h with ⟨hmade, hnot⟩ | ⟨later, now, before, q, j, rfl, hrun, hj, htaint, hi, hnot⟩
  · refine .inl ⟨mem_madeIn_cons hmade, fun use hin => ?_⟩
    rcases List.mem_cons.1 hin with hin | hin
    · exact hm use hin.symm
    · exact hnot use hin
  · refine .inr ⟨m :: later, now, before, q, j, rfl, hrun, hj, htaint, hi, fun use hin => ?_⟩
    rcases List.mem_cons.1 hin with hin | hin
    · exact hm use hin.symm
    · exact hnot use hin

/-- **Nobody has done anything with an idle interpreter** since it was made or reset. -/
theorem Path.untouched (h : Path start ms log p) (ho : Opened config opened start) :
    (∀ i ∈ madeIn opened ms, i.Ready) → Dealt ms → ∀ i ∈ p.idle, Untouched config opened ms i := by
  induction h with
  | refl => exact fun _ _ i hi => .inl ⟨ho.1.inside.1 hi, fun _ => List.not_mem_nil⟩
  | @step ms log p q m h s ih =>
    intro hready hdealt i hi
    have hready' := fun i hi => hready i (mem_madeIn_cons hi)
    have horder := h.orderly ho hready' hdealt.tail
    have hb := (h.run ho).balanced
    obtain ⟨ha, w, w', hrun⟩ := s
    rcases Move.mem_idle ha hrun hi with hi | hi
    · refine (ih hready' hdealt.tail i hi).cons fun use hm => ?_
      rw [hm] at ha
      obtain ⟨j, hj, hid⟩ := List.mem_map.1 ha.1
      exact hb.idle_ne_loan hi hj hid.symm
    · cases hi with
      | @made c i now hc hok =>
        refine .inl ⟨mem_madeIn_cons (horder.ended c hc i hok), fun use hin => ?_⟩
        rcases List.mem_cons.1 hin with hin | hin
        · cases hin
        · refine horder.unlent c hc ?_
          rw [← (hb.ended c hc i hok).1]
          exact horder.used i.id use hin
      | @back id now j hj fresh untainted =>
        obtain rfl := (loan?_eq_some hj).2
        exact .inr ⟨[], now, ms, p, j, rfl, h.run ho, hj, untainted, rfl, fun _ => List.not_mem_nil⟩

/-! ## Interpreters that are out of use

A tainted interpreter stays with its borrower until he hands it back, and is discarded then.  Its
number is not given out again, so nobody can be handed that interpreter any more. -/

/-- An interpreter that is not handed out any more: if it is still there, then it is on loan and
tainted. -/
structure Retired (id : Nat) (p : Pool) : Prop where
  idle : id ∉ p.idle.map (·.id)
  loans : ∀ i ∈ p.loans, i.id = id → i.tainted.isSome = true
  creations : id ∉ p.creations.map (·.id)
  lt : id < p.nextId

/-- **An interpreter that is out of use stays so**, and it is not handed out. -/
theorem Retired.step {born : List Interpreter} (h : Retired id p) (hb : Balanced born p 0 0 [])
    (s : Step p m q) (hdealt : Dealt [m]) : Retired id q ∧ id ∉ handedOut p q := by
  obtain ⟨ha, w, w', hrun⟩ := s
  obtain ⟨hnext, hcreations⟩ := Move.mem_creations ha hrun
  -- whatever is on loan under the number was on loan before
  have hloans : ∀ i ∈ q.loans, i.id = id → i.tainted.isSome = true ∧ id ∈ p.loans.map (·.id) := by
    intro i hi hid
    rcases Move.mem_loans ha hrun hi with hi | hi | ⟨id', use, j, rfl, hj, rfl⟩
    · exact ⟨h.loans i hi hid, hid ▸ List.mem_map_of_mem hi⟩
    · refine absurd hid ?_
      cases hi with
      | @idle _ j hj _ => exact fun hid => h.idle (List.mem_map.2 ⟨j, hj, hid⟩)
      | @made c j now hc hok =>
        exact fun hid => h.creations (List.mem_map.2 ⟨c, hc, (hb.ended c hc j hok).1.symm.trans hid⟩)
    · obtain ⟨d, rfl⟩ := hdealt id' use List.mem_cons_self
      obtain ⟨tainted, hk, htaint⟩ := d.ensures_use j w
      obtain ⟨hmem, -⟩ := loan?_eq_some hj
      rw [hk] at hid ⊢
      exact ⟨htaint (h.loans j hmem hid), List.mem_map.2 ⟨j, hmem, hid⟩⟩
  refine ⟨⟨fun hin => ?_, fun i hi hid => (hloans i hi hid).1, fun hin => ?_,
    Nat.lt_of_lt_of_le h.lt hnext⟩, fun hout => ?_⟩
  · obtain ⟨i, hi, hid⟩ := List.mem_map.1 hin
    rcases Move.mem_idle ha hrun hi with hi | hi
    · exact h.idle (hid ▸ List.mem_map_of_mem hi)
    · cases hi with
      | @made c i now hc hok =>
        exact h.creations (List.mem_map.2 ⟨c, hc, (hb.ended c hc i hok).1.symm.trans hid⟩)
      | @back id' now j hj fresh untainted =>
        have htaint := h.loans j (loan?_eq_some hj).1 hid
        rw [untainted] at htaint
        cases htaint
  · obtain ⟨c, hc, hid⟩ := List.mem_map.1 hin
    cases hcreations c hc with
    | same hd hcd _ => exact h.creations (List.mem_map.2 ⟨_, hd, hcd.symm.trans hid⟩)
    | ended hd hcd _ _ => exact h.creations (List.mem_map.2 ⟨_, hd, hcd.symm.trans hid⟩)
    | begun hcd _ =>
      have hlt := h.lt
      rw [← hid, hcd] at hlt
      exact Nat.lt_irrefl _ hlt
  · obtain ⟨i, hi, hid⟩ := exists_loan_of_handedOut hout
    exact (mem_handedOut.1 hout).2 (hloans i hi hid).2

theorem Path.balanced {born : List Interpreter} (h : Path start ms log p)
    (hb : Balanced born start 0 0 []) : ∃ born', Balanced born' p 0 0 [] := by
  induction h with
  | refl => exact ⟨born, hb⟩
  | step _ s ih =>
    obtain ⟨born', hb'⟩ := ih
    exact ⟨_, s.balanced hb'⟩

/-- However the run goes on, an interpreter that is out of use is not handed out. -/
theorem Retired.path {born : List Interpreter} (h : Retired id start)
    (hb : Balanced born start 0 0 []) (hpath : Path start ms log p) :
    Dealt ms → Retired id p ∧ id ∉ log := by
  induction hpath with
  | refl => exact fun _ => ⟨h, List.not_mem_nil⟩
  | @step ms log p q m hpath s ih =>
    intro hdealt
    obtain ⟨hretired, hnot⟩ := ih hdealt.tail
    obtain ⟨born', hb'⟩ := hpath.balanced hb
    have hone : Dealt [m] := fun id use hm =>
      hdealt id use (List.mem_cons.2 (.inl (List.mem_singleton.1 hm)))
    obtain ⟨hretired', hnot'⟩ := hretired.step hb' s hone
    exact ⟨hretired', fun hin => (List.mem_append.1 hin).elim hnot' hnot⟩

/-- An interpreter one of whose runs was aborted is out of use. -/
theorem retired_of_aborts {born : List Interpreter} (hb : Balanced born p 0 0 []) {d : Dealing}
    {w w' : World} (hi : p.loan? id = some i) (habort : d.Aborts i w)
    (hrun : ((Move.onLoan id d.use).apply p).run w = (q, w')) : Retired id q := by
  obtain ⟨hmem, hid⟩ := loan?_eq_some hi
  have ha : (Move.onLoan id d.use).Allowed p := ⟨List.mem_map.2 ⟨i, hmem, hid⟩, d.isUse⟩
  obtain ⟨j, hj, rfl⟩ := Move.effect ha hrun
  obtain rfl := Option.some.inj (hi.symm.trans hj)
  refine ⟨fun hin => ?_, fun k hk hkid => ?_, fun hin => ?_, hid ▸ hb.loan_lt hmem⟩
  · obtain ⟨k, hk, hkid⟩ := List.mem_map.1 hin
    exact hb.idle_ne_loan hk hmem (hkid.trans hid.symm)
  · obtain ⟨other, -, rfl⟩ := List.mem_map.1 hk
    split
    · exact d.isSome_tainted_of_aborts habort
    · rename_i hne
      rw [if_neg hne] at hkid
      exact absurd (beq_iff_eq.2 hkid) hne
  · obtain ⟨c, hc, hcid⟩ := List.mem_map.1 hin
    exact hb.creation_ne_loan hc hmem (hcid.trans hid.symm)

/-- **Every interpreter that is handed out is clean.**  At any moment of any run, an idle
interpreter is untainted and not executing, nobody has done anything with it since it was made or
last reset, and it has been on loan less often than the configuration allows, or not at all.  No
interpreter is on loan more often than that.  And if a borrower has a run that is aborted, whatever
he runs afterwards, then his interpreter is not handed out again, however the run of the pool goes
on. -/
theorem clean_of_path (ho : Opened config opened start) (h : Path start ms log p)
    (hready : ∀ i ∈ madeIn opened ms, i.Ready) (hdealt : Dealt ms) :
    (∀ i ∈ p.idle, i.tainted = none ∧ i.executing = false ∧ Untouched config opened ms i
      ∧ ∀ n, config.maxUses = some n → i.useCount < max n 1)
    ∧ (∀ n, config.maxUses = some n → ∀ id, log.count id ≤ max n 1)
    ∧ ∀ (id : Nat) (d : Dealing) (i : Interpreter) (w w' : World) (q : Pool),
        p.loan? id = some i → d.Aborts i w →
        ((Move.onLoan id d.use).apply p).run w = (q, w') →
        ∀ later lent r, Path q later lent r → Dealt later → id ∉ lent ∧ id ∉ r.idle.map (·.id) := by
  have horder := h.orderly ho hready hdealt
  have hconfig : p.config.maxUses = config.maxUses := by
    rw [(h.run ho).config]
    rfl
  refine ⟨fun i hi => ⟨horder.untainted i hi, horder.resting i (List.mem_append_left _ hi),
    h.untouched ho hready hdealt i hi, fun n hn => horder.fresh i hi n (hconfig.trans hn)⟩,
    fun n hn => horder.limit n (hconfig.trans hn), ?_⟩
  intro id d i w w' q hi habort hrun later lent r hpath hdealt'
  have hb := (h.run ho).balanced
  have hmem : id ∈ p.loans.map (·.id) := List.mem_map.2 ⟨i, loan?_eq_some hi⟩
  have s : Step p (.onLoan id d.use) q := ⟨⟨hmem, d.isUse⟩, w, w', hrun⟩
  obtain ⟨hretired, hnot⟩ := (retired_of_aborts hb hi habort hrun).path (s.balanced hb) hpath hdealt'
  exact ⟨hnot, hretired.idle⟩

/-- A borrower who runs one script, which runs out of memory. -/
def exhausting : Dealing := .run (α := Unit) (fun _ => pure (.error .memory)) fun _ => .done

/-- A configuration for a single interpreter that is lent out twice. -/
def twice : PoolConfig := { single with maxUses := some 2 }

/-- An interpreter is lent out, handed back and lent out again.  If it runs out of memory then, it
is not handed out any more. -/
theorem clean_of_path_twice : ∃ start ms log p, Opened twice [] start ∧ Path start ms log p
    ∧ log = [1, 1] ∧ (∀ id, log.count id ≤ 2)
    ∧ (∃ i w, p.loan? 1 = some i ∧ exhausting.Aborts i w)
    ∧ ∀ w w' q, ((Move.onLoan 1 exhausting.use).apply p).run w = (q, w') →
      ∀ later lent r, Path q later lent r → Dealt later → 1 ∉ lent := by
  have ho : Opened twice [] _ := ⟨.empty rfl, Nat.zero_le _⟩
  have h₁ := ho.path.step (m := .request 7 3) ⟨List.not_mem_nil, default, _, rfl⟩
  have h₂ := h₁.step (m := .endCreation 1 (.ok firstMade))
    ⟨⟨⟨_, List.mem_cons_self, rfl, rfl⟩, fun i hi => by cases hi; rfl⟩, default, _, rfl⟩
  have h₃ := h₂.step (m := .collect
    { id := 1, purpose := some (.request 7), outcome := some (.ok firstMade) } (.ok firstMade) 5)
    ⟨⟨List.mem_cons_self, rfl⟩, default, _, rfl⟩
  have h₄ := h₃.step (m := .giveBack 1 6) ⟨List.mem_cons_self, default, _, rfl⟩
  have h₅ := h₄.step (m := .request 8 7) ⟨List.not_mem_nil, default, _, rfl⟩
  obtain ⟨-, hlimit, hafter⟩ := clean_of_path ho h₅
    (fun i hi => by
      obtain rfl := List.mem_singleton.1 hi
      exact ⟨rfl, rfl, rfl⟩)
    (fun id use hm => by simp at hm)
  refine ⟨_, _, _, _, ho, h₅, rfl, hlimit 2 rfl, ⟨_, default, rfl, .inl ⟨.memory, rfl, ?_⟩⟩, ?_⟩
  · rw [Interpreter.isAbort]
    exact Bool.or_true _
  · intro w w' q hrun later lent r hpath hd
    exact (hafter 1 exhausting _ w w' q rfl (.inl ⟨.memory, rfl, Bool.or_true _⟩) hrun later lent r
      hpath hd).1

end Pool
end ScriptPool
