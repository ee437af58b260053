import ScriptPool.Proofs.Pool.Executing

/-!
# What an execution leaves behind

Whoever executes a script is lent an interpreter for it, and what the script does to the globals is
to be nobody else's business.  An interpreter that is idle, or has just been made, or was lent and
not used since, is unused: it has the globals of a new one, and nobody can get at it.  Every move of
a pool keeps that, and so does whatever is done with the other interpreters.

There is one exception.  Collections call the finalizers that borrowers have left, at the end of a
return or at any time after, and those bind what globals they like.

## What is here

* `Move.IsLocal`, `Move.leaves` — borrowers work in the guest states of their own interpreters, so a
  move leaves all others as they are.
* `Shift` — a run of a pool and its world, in which functions are called from outside in between and
  collections take place.
* `usedIn` — the interpreters that somebody has used since they were lent.
* `Tidy`, `Tidy.move`, `Tidy.make`, `Tidy.collect`, `Shift.tidy` — **interpreters that are idle or
  were not used since they were lent are unused**, whatever happens, unless finalizers were called
  there.
* `executed_of_shift` — **an execution ends its loan, and finds nothing of earlier ones.**
-/

set_option autoImplicit false

namespace ScriptPool
namespace Pool

variable {limits : ResourceLimits} {born opened : List Interpreter} {ms : List Move} {m : Move}
  {start p q : Pool} {i j : Interpreter} {id : Nat} {used stirred : List Nat} {u v w : World}

/-! ## Moves

A move works in one guest state at most, that of the interpreter that is used or handed back, and
unused interpreters in other states are left as they are.  The end of a creation is left out,
because it adds a state to the world. -/

/-- A borrower works in the guest state of his interpreter.  A creation that succeeds is none of
these moves, since it adds a state to the world. -/
def Move.IsLocal : Move → Prop
  | .onLoan _ use => ∀ i, World.IsLocal i.state (use i)
  | .endCreation _ (.ok _) => False
  | _ => True

/-- Executing a script is such a move. -/
theorem Move.isLocal_execute (id : Nat) (c : Converter) (script : Script)
    (globals : List (String × Value)) : (Move.execute id c script globals).IsLocal :=
  fun i P R _ hR hends hi => (World.isLocal_execute i c script globals P R hR hends hi).bind
    fun _ => Transition.keeps_pure _

/-- No interpreter comes into being by it. -/
theorem Move.IsLocal.made?_eq_none (h : m.IsLocal) : m.made? = none := by
  cases m with
  | endCreation id outcome =>
    cases outcome with
    | ok i => exact h.elim
    | error e => rfl
  | _ => rfl

/-- The state of the interpreter that is used or handed back. -/
def Move.At (p : Pool) (s : Nat) : Move → Prop
  | .onLoan id _ => ∃ i, p.loan? id = some i ∧ s = i.state
  | .giveBack id _ => ∃ i, p.loan? id = some i ∧ s = i.state
  | _ => False

/-- **A move leaves all interpreters as they are** but the one that is used or handed back. -/
theorem Move.leaves (hw : v.Regular) (hloans : ∀ i ∈ p.loans, i.Restorable limits v)
    (ha : m.Allowed p) (hm : m.IsLocal) (hrun : (m.apply p).run v = (q, w)) :
    World.Leaves limits (fun s => m.At p s) v w := by
  have hinternal : m.IsInternal → World.Leaves limits (fun s => m.At p s) v w := fun hm => by
    have hends := Move.ending hm ha (World.allowsEnds_onlyEnds (Unlent p)) v
    rw [hrun] at hends
    exact (hends.leaves hw).mono fun _ h => h.elim
  cases m with
  | onLoan id use =>
    obtain ⟨i, hi⟩ := exists_loan? ha.1
    have hstate : ((use i).run v).2 = w := by
      have hstate : ((p.onLoan id use).run v).2 = w := congrArg Prod.snd hrun
      rwa [run_onLoan hi] at hstate
    have hconfined := (hm i).confined hw (hloans i (loan?_eq_some hi).1).there
    rw [hstate] at hconfined
    exact hconfined.leaves.mono fun s hs => ⟨i, hi, hs⟩
  | giveBack id now =>
    obtain ⟨i, hi⟩ := exists_loan? ha
    have hstate : ((p.takeBack i now).run v).2 = w := by
      have hstate : ((p.giveBack id now).run v).2 = w := congrArg Prod.snd hrun
      rwa [Pool.giveBack, hi] at hstate
    have hconfined := (isLocal_takeBack p i now).confined hw (hloans i (loan?_eq_some hi).1).there
    rw [hstate] at hconfined
    exact hconfined.leaves.mono fun s hs => ⟨i, hi, hs⟩
  | endCreation id outcome =>
    cases outcome with
    | ok i => exact hm.elim
    | error e =>
      obtain rfl : v = w := congrArg Prod.snd hrun
      exact ((refl_of World.OnlyEnds v).leaves hw).mono fun _ h => h.elim
  | _ => exact hinternal trivial

/-! ## Runs -/

/-- The states in which finalizers have been called, after a move: a return restores the state of
the interpreter, and then there is a collection. -/
def Move.stir (p : Pool) (w : World) (stirred : List Nat) : Move → List Nat
  | .giveBack id _ =>
      match p.loan? id with
      | some i => (i.restored w).stir i.state (stirred.filter fun s => s != i.state)
      | none => stirred
  | _ => stirred

/-- A pool and its world, with the moves made so far, the latest first, and with the guest states in
which finalizers have been called since they were made or restored.  Borrowers work in the guest
states of their interpreters, and new interpreters are made under the limits of the pool.  In
between functions are called from outside, of the guest and of the host, by whoever has got hold of
them, and there are collections. -/
inductive Shift (limits : ResourceLimits) (start : Pool) (u : World) :
    List Move → List Nat → Pool → World → Prop where
  | refl : Shift limits start u [] [] start u
  | move {ms : List Move} {stirred : List Nat} {p q : Pool} {v w : World} {m : Move}
      (h : Shift limits start u ms stirred p v) (allowed : m.Allowed p) (works : m.IsLocal)
      (hrun : (m.apply p).run v = (q, w)) :
      Shift limits start u (m :: ms) (m.stir p v stirred) q w
  | make {ms : List Move} {stirred : List Nat} {p : Pool} {v w : World} {id now : Nat}
      {i : Interpreter} (h : Shift limits start u ms stirred p v)
      (allowed : (Move.endCreation id (.ok i)).Allowed p)
      (hnew : (World.newInterpreter limits id now).run v = (.ok i, w)) :
      Shift limits start u (.endCreation id (.ok i) :: ms) stirred (p.endCreation id (.ok i)) w
  | call {ms : List Move} {stirred : List Nat} {p : Pool} {v : World}
      (h : Shift limits start u ms stirred p v) (f : FunctionValue) (args : List Value) :
      Shift limits start u ms stirred p ((World.call f args).run v).2
  | host {ms : List Move} {stirred : List Nat} {p : Pool} {v : World}
      (h : Shift limits start u ms stirred p v) (f : HostFunction) :
      Shift limits start u ms stirred p (v.newFunction (.host f)).2
  | collect {ms : List Move} {stirred : List Nat} {p : Pool} {v : World}
      (h : Shift limits start u ms stirred p v) {s : Nat} (there : s < v.states.size) :
      Shift limits start u ms (v.stir s stirred) p ((World.collect s).run v).2

/-- A run begins with a pool that has just been opened. -/
theorem Opened.shift {config : PoolConfig} (_ : Opened config opened p) (limits : ResourceLimits)
    (u : World) : Shift limits p u [] [] p u := .refl

/-- Wherever a move leads, the run goes on from there. -/
theorem Shift.moved (h : Shift limits start u ms stirred p v) (ha : m.Allowed p) (hm : m.IsLocal) :
    Shift limits start u (m :: ms) (m.stir p v stirred) ((m.apply p).run v).1
      ((m.apply p).run v).2 :=
  h.move ha hm rfl

/-- A move settles no state but that of the interpreter that is handed back. -/
theorem Move.mem_stir {s : Nat} (hs : s ∈ stirred) (hnot : ¬ m.At p s) :
    s ∈ m.stir p w stirred := by
  cases m with
  | giveBack id now =>
    rw [Move.stir]
    split
    · rename_i i hi
      have hkept : s ∈ stirred.filter fun other => other != i.state :=
        List.mem_filter.2 ⟨hs, bne_iff_ne.2 fun heq => hnot ⟨i, hi, heq⟩⟩
      rw [World.stir]
      split
      · exact hkept
      · exact List.mem_cons_of_mem _ hkept
    · exact hs
  | _ => exact hs

/-- The interpreters that somebody has used since they were lent. -/
def usedIn : List Move → List Nat
  | [] => []
  | .onLoan id _ :: ms => id :: usedIn ms
  | .giveBack id _ :: ms => (usedIn ms).filter fun other => other != id
  | _ :: ms => usedIn ms

/-- A world in which interpreters have been made for a pool that is opened, the latest first. -/
inductive Stocked (limits : ResourceLimits) : List Interpreter → World → Prop where
  | empty {w : World} (h : w.Regular) : Stocked limits [] w
  | more {made : List Interpreter} {v w : World} {id now : Nat} {i : Interpreter}
      (h : Stocked limits made v)
      (hnew : (World.newInterpreter limits id now).run v = (.ok i, w)) :
      Stocked limits (i :: made) w

/-! ## What is kept

The states in which finalizers have been called are kept in a list, and nothing is said of
interpreters in those.  A reset takes a state off the list, unless the collection of the reset puts
it back on. -/

/-- What the pools and worlds of a run satisfy.  Interpreters that are idle or have just been made
are unused, and so are those on loan that nobody has used since they were lent, except where
finalizers have been called. -/
structure Tidy (limits : ResourceLimits) (born : List Interpreter) (used stirred : List Nat)
    (p : Pool) (w : World) : Prop where
  balanced : Balanced born p 0 0 []
  housed : Housed born w
  regular : w.Regular
  idle : ∀ i ∈ p.idle, i.Tended limits stirred w
  ended : ∀ c ∈ p.creations, ∀ i, c.outcome = some (.ok i) → i.Tended limits stirred w
  lent : ∀ i ∈ p.loans, i.Restorable limits w
  fresh : ∀ i ∈ p.loans, i.id ∉ used → i.Tended limits stirred w

/-- A new interpreter has a guest state of its own. -/
theorem Housed.newState (h : Housed born v) (g : GuestState) (hi : i.state = v.states.size) :
    Housed (i :: born) (v.newState g).2 := by
  refine ⟨List.nodup_cons.2 ⟨fun hin => ?_, h.distinct⟩, fun j hj => ?_⟩
  · obtain ⟨b, hb, hstate⟩ := List.mem_map.1 hin
    exact Nat.ne_of_lt (h.there b hb) (hstate.trans hi)
  · rw [World.size_newState]
    rcases List.mem_cons.1 hj with rfl | hj
    · exact Nat.lt_succ_of_le (Nat.le_of_eq hi)
    · exact Nat.lt_succ_of_lt (h.there j hj)

namespace Tidy

/-- What is done besides the pool. -/
theorem leaves (h : Tidy limits born used stirred p v)
    (hw : World.Leaves limits (fun _ => False) v w) : Tidy limits born used stirred p w where
  balanced := h.balanced
  housed := h.housed.mono hw.size
  regular := hw.regular
  idle i hi := (h.idle i hi).leaves hw id
  ended c hc i ho := (h.ended c hc i ho).leaves hw id
  lent i hi := hw.restorable i (h.lent i hi)
  fresh i hi hnot := (h.fresh i hi hnot).leaves hw id

/-- **A collection** may stir up the one state that it is in. -/
theorem collect (h : Tidy limits born used stirred p v) {s : Nat} (hs : s < v.states.size) :
    Tidy limits born used (v.stir s stirred) p ((World.collect s).run v).2 := by
  have hleaves : World.Leaves limits (· = s) v ((World.collect s).run v).2 :=
    ((World.isLocal_collect s).confined h.regular hs).leaves
  exact ⟨h.balanced, h.housed.mono hleaves.size, hleaves.regular,
    fun i hi => (h.idle i hi).collect h.regular hs,
    fun c hc i ho => (h.ended c hc i ho).collect h.regular hs,
    fun i hi => hleaves.restorable i (h.lent i hi),
    fun i hi hnot => (h.fresh i hi hnot).collect h.regular hs⟩

/-- An interpreter on loan with that state has that number. -/
theorem id_eq_of_loan? (h : Tidy limits born used stirred p v) (hj : j ∈ p.loans)
    (hi : p.loan? id = some i) (hstate : j.state = i.state) : j.id = id := by
  obtain ⟨hmem, rfl⟩ := loan?_eq_some hi
  exact h.housed.id_eq (h.balanced.stems j (List.mem_append_right _ hj))
    (h.balanced.stems i (List.mem_append_right _ hmem)) hstate

/-- What is not on loan is neither used nor handed back. -/
theorem not_at_of_unlent (h : Tidy limits born used stirred p v) {s : Nat} (hs : Unlent p s)
    (m : Move) : ¬ m.At p s := by
  have hnot : ∀ {id : Nat}, ¬ ∃ i, p.loan? id = some i ∧ s = i.state := by
    rintro id ⟨i, hi, rfl⟩
    exact h.housed.not_unlent h.balanced (loan?_eq_some hi).1 hs
  cases m with
  | onLoan id use => exact hnot
  | giveBack id now => exact hnot
  | _ => exact not_false

/-- An interpreter that is still on loan after a move and unused was neither used before nor by the
move. -/
theorem not_at_of_fresh (h : Tidy limits born (usedIn ms) stirred p v) (ha : m.Allowed p)
    (hrun : (m.apply p).run v = (q, w)) (hj : j ∈ p.loans) (hq : j ∈ q.loans)
    (hnot : j.id ∉ usedIn (m :: ms)) : j.id ∉ usedIn ms ∧ ¬ m.At p j.state := by
  cases m with
  | onLoan id use =>
    obtain ⟨hne, hnot⟩ := not_or.1 (mt List.mem_cons.2 hnot)
    exact ⟨hnot, fun ⟨i, hi, hstate⟩ => hne (h.id_eq_of_loan? hj hi hstate)⟩
  | giveBack id now =>
    have hne : j.id ≠ id := by
      rintro rfl
      exact (h.balanced.concluded ha hrun).returned (List.mem_map_of_mem hq)
    refine ⟨fun hin => hnot (List.mem_filter.2 ⟨hin, bne_iff_ne.2 hne⟩), ?_⟩
    exact fun ⟨i, hi, hstate⟩ => hne (h.id_eq_of_loan? hj hi hstate)
  | _ => exact ⟨hnot, not_false⟩

/-- What is not used by a move is left as it is. -/
theorem tended_move (h : Tidy limits born used stirred p v) (ha : m.Allowed p) (hm : m.IsLocal)
    (hrun : (m.apply p).run v = (q, w)) (hi : i.Tended limits stirred v) (hnot : ¬ m.At p i.state) :
    i.Tended limits (m.stir p v stirred) w := by
  have hleaves := Move.leaves h.regular h.lent ha hm hrun
  refine ⟨hleaves.restorable i hi.restorable, fun hs => hleaves.unused i hnot (hi.unused ?_)⟩
  exact fun hin => hs (Move.mem_stir hin hnot)

/-- **What is idle after a move is unused**: it was idle before, or it has just been made, or it was
reset on its return. -/
theorem idle_move (h : Tidy limits born used stirred p v) (ha : m.Allowed p) (hm : m.IsLocal)
    (hrun : (m.apply p).run v = (q, w)) (hi : i ∈ q.idle) :
    i.Tended limits (m.stir p v stirred) w := by
  have hidle : i ∈ p.idle → i.Tended limits (m.stir p v stirred) w := fun hi =>
    h.tended_move ha hm hrun (h.idle i hi) (h.not_at_of_unlent (.inl ⟨i, hi, rfl⟩) m)
  rcases Move.mem_idle ha hrun hi with hi | hqueued
  · exact hidle hi
  · cases hqueued with
    | made hc ho =>
      exact h.tended_move ha hm hrun (h.ended _ hc i ho)
        (h.not_at_of_unlent (.inr ⟨_, hc, i, ho, rfl⟩) _)
    | @back id now j hj fresh untainted =>
      cases returned_giveBack hj hrun with
      | kept untainted idle world =>
        have hreset := Interpreter.tended_reset h.regular (h.lent j (loan?_eq_some hj).1) untainted
          world (stirred.filter fun s => s != j.state)
        have hstir : (Move.giveBack id now).stir p v stirred
            = (j.restored v).stir j.state (stirred.filter fun s => s != j.state) := by
          rw [Move.stir, hj]
        rw [hstir]
        exact hreset.congr rfl rfl rfl
      | gone idle destroyed => exact hidle (idle ▸ hi)

/-- What is on loan after a move can be restored, and it is unused if nobody has used it. -/
theorem loans_move (h : Tidy limits born (usedIn ms) stirred p v) (ha : m.Allowed p)
    (hm : m.IsLocal) (hrun : (m.apply p).run v = (q, w)) (hi : i ∈ q.loans) :
    i.Restorable limits w
      ∧ (i.id ∉ usedIn (m :: ms) → i.Tended limits (m.stir p v stirred) w) := by
  have hleaves := Move.leaves h.regular h.lent ha hm hrun
  have hlent : ∀ {j : Interpreter}, Unlent p j.state → j.Tended limits stirred v →
      j.lent.Restorable limits w
        ∧ (j.lent.id ∉ usedIn (m :: ms) → j.lent.Tended limits (m.stir p v stirred) w) :=
    fun hs hj => by
      have htended := (h.tended_move ha hm hrun hj (h.not_at_of_unlent hs m)).congr
        (j := Interpreter.lent _) rfl rfl rfl
      exact ⟨htended.restorable, fun _ => htended⟩
  rcases Move.mem_loans ha hrun hi with hbefore | hnew | ⟨id, use, j, rfl, hj, rfl⟩
  · refine ⟨hleaves.restorable i (h.lent i hbefore), fun hnot => ?_⟩
    obtain ⟨hfresh, hnotAt⟩ := h.not_at_of_fresh ha hrun hbefore hi hnot
    exact h.tended_move ha hm hrun (h.fresh i hbefore hfresh) hnotAt
  · cases hnew with
    | idle hj resting => exact hlent (.inl ⟨_, hj, rfl⟩) (h.idle _ hj)
    | made hc ho => exact hlent (.inr ⟨_, hc, _, ho, rfl⟩) (h.ended _ hc _ ho)
  · obtain ⟨hmem, rfl⟩ := loan?_eq_some hj
    obtain ⟨executing, tainted, wasReset, hsame⟩ := ha.2 j v
    rw [hsame]
    refine ⟨(hleaves.restorable j (h.lent j hmem)).congr rfl rfl, fun hnot => ?_⟩
    exact absurd List.mem_cons_self hnot

/-- **A move keeps unused what nobody uses.** -/
theorem move (h : Tidy limits born (usedIn ms) stirred p v) (ha : m.Allowed p) (hm : m.IsLocal)
    (hrun : (m.apply p).run v = (q, w)) :
    Tidy limits born (usedIn (m :: ms)) (m.stir p v stirred) q w := by
  have hleaves := Move.leaves h.regular h.lent ha hm hrun
  have hbalanced := Step.balanced h.balanced ⟨ha, v, w, hrun⟩
  rw [hm.made?_eq_none] at hbalanced
  refine ⟨hbalanced, h.housed.mono hleaves.size, hleaves.regular,
    fun i hi => h.idle_move ha hm hrun hi, fun c hc i ho => ?_,
    fun i hi => (h.loans_move ha hm hrun hi).1, fun i hi => (h.loans_move ha hm hrun hi).2⟩
  cases (Move.mem_creations ha hrun).2 c hc with
  | same hd number outcome =>
    rw [outcome] at ho
    exact h.tended_move ha hm hrun (h.ended _ hd i ho)
      (h.not_at_of_unlent (.inr ⟨_, hd, i, ho, rfl⟩) m)
  | ended hd number is outcome =>
    obtain rfl := Option.some.inj (outcome.symm.trans ho)
    rw [is] at hm
    exact hm.elim
  | begun number outcome =>
    rw [outcome] at ho
    cases ho

/-- **So does the making of an interpreter**, and the new one is unused. -/
theorem make (h : Tidy limits born (usedIn ms) stirred p v) (hscript : limits.initScript = none)
    {now : Nat} (ha : (Move.endCreation id (.ok i)).Allowed p)
    (hnew : (World.newInterpreter limits id now).run v = (.ok i, w)) :
    Tidy limits (i :: born) (usedIn (.endCreation id (.ok i) :: ms)) stirred
      (p.endCreation id (.ok i)) w := by
  obtain ⟨rfl, rfl⟩ := World.eq_of_newInterpreter hscript hnew
  have hleaves : World.Leaves limits (fun _ => False) v _ :=
    World.leaves_newState h.regular (.limited limits)
  have hmade : (Interpreter.plain limits id v.states.size now).Unused limits _ :=
    Interpreter.unused_plain h.regular id now
  have hrun : ((Move.endCreation id (.ok (.plain limits id v.states.size now))).apply p).run v
      = (p.endCreation id (.ok (.plain limits id v.states.size now)), v) := rfl
  refine ⟨Step.balanced h.balanced ⟨ha, v, v, hrun⟩, h.housed.newState _ rfl, hleaves.regular,
    fun j hj => (h.idle j hj).leaves hleaves not_false, fun c hc j ho => ?_,
    fun j hj => hleaves.restorable j (h.lent j hj),
    fun j hj hnot => (h.fresh j hj hnot).leaves hleaves not_false⟩
  cases (Move.mem_creations ha hrun).2 c hc with
  | same hd number outcome =>
    rw [outcome] at ho
    exact (h.ended _ hd j ho).leaves hleaves not_false
  | ended hd number is outcome =>
    obtain rfl := Option.some.inj (outcome.symm.trans ho)
    cases is
    exact hmade.tended stirred
  | begun number outcome =>
    rw [outcome] at ho
    cases ho

end Tidy

/-- The interpreters that a pool is opened with are unused. -/
theorem Stocked.spec (h : Stocked limits opened u) (hscript : limits.initScript = none) :
    u.Regular ∧ Housed opened u ∧ ∀ i ∈ opened, i.Unused limits u := by
  induction h with
  | empty h =>
    exact ⟨h, ⟨List.nodup_nil, fun _ h => absurd h List.not_mem_nil⟩,
      fun _ h => absurd h List.not_mem_nil⟩
  | @more made v w id now i _ hnew ih =>
    obtain ⟨hregular, hhoused, hunused⟩ := ih
    obtain ⟨rfl, rfl⟩ := World.eq_of_newInterpreter hscript hnew
    have hleaves : World.Leaves limits (fun _ => False) _ _ :=
      World.leaves_newState hregular (.limited limits)
    refine ⟨hleaves.regular, hhoused.newState _ rfl, fun j hj => ?_⟩
    rcases List.mem_cons.1 hj with rfl | hj
    · exact Interpreter.unused_plain hregular id now
    · exact hleaves.unused j not_false (hunused j hj)

/-- A pool that has just been opened is tidy. -/
theorem Opened.tidy {config : PoolConfig} (ho : Opened config opened p)
    (hs : Stocked limits opened u) (hscript : limits.initScript = none) :
    Tidy limits opened (usedIn []) [] p u := by
  obtain ⟨hregular, hhoused, hunused⟩ := hs.spec hscript
  obtain ⟨hidle, hloans, hcreations⟩ := ho.1.inside
  refine ⟨ho.1.balanced, hhoused, hregular, fun i hi => (hunused i (hidle hi)).tended [],
    fun c hc => ?_, fun i hi => ?_, fun i hi => ?_⟩
  · rw [hcreations] at hc
    exact absurd hc List.not_mem_nil
  · rw [hloans] at hi
    exact absurd hi List.not_mem_nil
  · rw [hloans] at hi
    exact absurd hi List.not_mem_nil

/-- **Whatever happens, interpreters stay unused that nobody uses**, except where finalizers are
called.
-/
theorem Shift.tidy (h : Shift limits start u ms stirred p v) (hscript : limits.initScript = none)
    (hstart : Tidy limits opened (usedIn []) [] start u) :
    Tidy limits (madeIn opened ms) (usedIn ms) stirred p v := by
  induction h with
  | refl => exact hstart
  | move _ ha hm hrun ih =>
    rw [madeIn_cons, hm.made?_eq_none]
    exact ih.move ha hm hrun
  | make _ ha hnew ih => exact ih.make hscript ha hnew
  | call _ f args ih => exact ih.leaves (World.confined_call ih.regular f args).leaves
  | host _ f ih => exact ih.leaves (World.leaves_newFunction ih.regular f)
  | collect _ there ih => exact ih.collect there

/-! ## Executions

Two things are told apart.  A global name that was not bound for this execution has nothing of an
earlier one; but a table that is no global can still have it, and a script finds it there if it
knows where to look. -/

/-- **Nothing of earlier borrowers is found under global names.**  When values are bound to globals
of an interpreter that is unused, and however that ends, every other name reads as it does in a new
interpreter, and reading it changes nothing. -/
theorem getGlobal_bind (hscript : limits.initScript = none) (hv : v.Regular)
    (hi : i.Unused limits v) (c : Converter) (globals : List (String × Value)) {name : String}
    (hname : name ∉ globals.map (·.1)) : ∃ r,
      (i.getGlobal name).run ((i.bind c globals).run v).2
        = (.ok r, ((i.bind c globals).run v).2)
      ∧ ∀ (number now : Nat) (n : Interpreter) (x x' : World),
        (World.newInterpreter limits number now).run x = (.ok n, x') →
          (n.getGlobal name).run x' = (.ok r, x') := by
  have hbinds := Interpreter.bindsOnly_bind c globals hv hi.there hi.binds
  have hread := hbinds.read name fun hin =>
    hname ((List.mem_append.1 hin).resolve_right List.not_mem_nil)
  refine ⟨_, Interpreter.run_getGlobal hbinds name, fun number now n x x' hnew => ?_⟩
  obtain ⟨rfl, rfl⟩ := World.eq_of_newInterpreter hscript hnew
  have hstate := x.state_newState (.limited limits)
  have hnone : GuestState.BindsOnly (.limited limits) []
      ((x.newState (.limited limits)).2.state x.states.size) := by
    rw [hstate]
    exact GuestState.bindsOnly_limited limits
  have hnew := Interpreter.run_getGlobal
    (i := .plain limits number x.states.size now) hnone name
  rw [hnew, hread, ← hnone.read name List.not_mem_nil]
  rfl

/-- **An execution ends its loan, and finds nothing of earlier ones under global names.**  Take any
run of a pool whose interpreters are made without a script for new ones, under any interleaving of
loans and with functions called from outside and collections in between, and an interpreter that is
on loan and was not used since it was lent.  While values are bound to its globals, and however that
ends, every other name reads as in a new interpreter, unless a collection has found something to
finalize since the interpreter was restored.  (A collection that finds nothing changes nothing, so
one of those may come while values are bound, too.)  When a service has executed a script on it,
whatever the outcome, one interpreter less is on loan, so as many as before the move that lent it if
nothing happened in between; and the interpreter is idle and not tainted, or it was discarded.  The
run goes on from there, so the same is true of the executions that follow.

What is said about names is said up to where the script begins.  A script can come upon a metatable
that an earlier one has changed without ever reading a global that the earlier one has left. -/
theorem executed_of_shift {config : PoolConfig} (ho : Opened config opened start)
    (hs : Stocked limits opened u) (hscript : limits.initScript = none)
    (h : Shift limits start u ms stirred p v) (hi : p.loan? id = some i) (hfresh : id ∉ usedIn ms)
    (c : Converter) (script : Script) (globals : List (String × Value)) (now : Nat) :
    (i.state ∉ stirred → ∀ name ∉ globals.map (·.1), ∃ r,
      (i.getGlobal name).run ((i.bind c globals).run v).2
        = (.ok r, ((i.bind c globals).run v).2)
      ∧ ∀ (number made : Nat) (n : Interpreter) (x x' : World),
        (World.newInterpreter limits number made).run x = (.ok n, x') →
          (n.getGlobal name).run x' = (.ok r, x'))
    ∧ ∃ q w,
      (∀ (s : Service) (r : Request), s.pool = p → s.now = now →
        r.errand = .execute c script globals →
        ((Service.runScript r id).run s).run v = (((), { s with
          pool := q
          endings := s.endings ++ [(r.key, .execution ((i.execute c script globals).run v).1.1)]
          requests := s.requests.filter fun other => other.key != r.key }), w))
      ∧ Concluded id p q
      ∧ (∀ m ms₀ stirred₀ p₀ v₀, ms = m :: ms₀ → Shift limits start u ms₀ stirred₀ p₀ v₀ →
        m.Allowed p₀ → (m.apply p₀).run v₀ = (p, v) → id ∈ handedOut p₀ p → q.inUse = p₀.inUse)
      ∧ ∃ stirred', Shift limits start u
        (.giveBack id now :: .execute id c script globals :: ms) stirred' q w := by
  have hopened := ho.tidy hs hscript
  have htidy := h.tidy hscript hopened
  obtain ⟨hmem, rfl⟩ := loan?_eq_some hi
  refine ⟨fun hsettled name hname => getGlobal_bind hscript htidy.regular
    ((htidy.fresh i hmem hfresh).unused hsettled) c globals hname, ?_⟩
  -- the execution, and then the return
  have hexecute : (Move.execute i.id c script globals).Allowed p :=
    ⟨List.mem_map_of_mem hmem, isUse_execute c script globals⟩
  rcases huse : ((Move.execute i.id c script globals).apply p).run v with ⟨p₁, v₁⟩
  have hused := h.move hexecute (Move.isLocal_execute i.id c script globals) huse
  have hstays : i.id ∈ p₁.loans.map (·.id) :=
    Move.stays_on_loan hexecute huse (List.mem_map_of_mem hmem) fun _ heq => nomatch heq
  rcases hback : ((Move.giveBack i.id now).apply p₁).run v₁ with ⟨q, w⟩
  have hconcluded := (hused.tidy hscript hopened).balanced.concluded hstays hback
  have hsame : p₁.inUse = p.inUse ∧ p₁.counters = p.counters := by
    rw [run_execute hi] at huse
    obtain ⟨rfl, -⟩ := Prod.mk.inj huse
    exact ⟨rfl, rfl⟩
  have hless : q.inUse + 1 = p.inUse := hconcluded.inUse.trans hsame.1
  refine ⟨q, w, ?_, ⟨hless, hconcluded.returned, ?_⟩, ?_, _, hused.move hstays trivial hback⟩
  · rintro s r rfl rfl hr
    exact Service.run_runScript hr (run_execution hi huse hback)
  · rw [← hsame.2]
    exact hconcluded.whereabouts
  · intro m ms₀ stirred₀ p₀ v₀ _ hbefore ha hrun hout
    rw [Move.inUse_of_lends (hbefore.tidy hscript hopened).balanced ha hrun hout] at hless
    exact Nat.succ.inj hless

/-- The metatable of arrays, got from one of them. -/
def markerOfList : Expr := .metatableOf (.get [.string "list".toUTF8])

/-- The key under which something is hidden. -/
def hideout : Expr := .literal (.string "kept".toUTF8)

/-- A script that hides a global in the metatable of arrays, and has it assigned again when somebody
looks for what an array does not have. -/
def stashing : Script :=
  [.setField markerOfList hideout (.get [.string "leaked".toUTF8]),
    .setField markerOfList (.literal (.string "__index".toUTF8))
      (.constant (.guarded [.set [.string "leaked".toUTF8] (.index markerOfList hideout)]))]

/-- A script that looks for something that an array does not have, and then reads that global. -/
def finding : Script :=
  [.eval (.get [.string "list".toUTF8, .string "missing".toUTF8]),
    .return [.get [.string "leaked".toUTF8]]]

/-- Limits without a script for new interpreters. -/
def strictLimits : ResourceLimits := { security := .strict }

/-- What the first borrower binds to globals, and what the second does. -/
def hidden : List (String × Value) := [("leaked", .string "mine"), ("list", .array [])]

def shown : List (String × Value) := [("list", .array [])]

/-- Does an interpreter read the first borrower's value, where nothing is read before the script
begins? -/
def findsHidden (i : Interpreter) (v : World) : Bool :=
  (match ((i.getGlobal "leaked").run ((i.bind {} shown).run v).2).1 with
    | .ok g => g.isNil
    | .error _ => false)
  && match ((i.execute {} finding shown).run v).1.1 with
    | .ok (.string s) => s == "mine"
    | _ => false

/-- In a run in which it does so, on a loan that has just begun, and where nothing was finalized. -/
theorem Shift.found (_ : Shift limits start u ms stirred p v) (id : Nat)
    (hfinds : (p.loan? id).any (fun i => !stirred.contains i.state && findsHidden i v) = true) :
    ∃ i, p.loan? id = some i ∧ i.state ∉ stirred
      ∧ ((i.getGlobal "leaked").run ((i.bind {} shown).run v).2).1 = .ok .nil
      ∧ ((i.execute {} finding shown).run v).1.1 = .ok (.string "mine") := by
  obtain ⟨i, hi, hfinds⟩ := (Option.any_eq_true _ _).1 hfinds
  obtain ⟨hsettled, hfinds⟩ := Bool.and_eq_true_iff.1 hfinds
  obtain ⟨hbefore, hafter⟩ := Bool.and_eq_true_iff.1 hfinds
  refine ⟨i, hi, fun hin => ?_, ?_, ?_⟩
  · rw [List.contains_iff_mem.2 hin] at hsettled
    cases hsettled
  · cases hread : ((i.getGlobal "leaked").run ((i.bind {} shown).run v).2).1 with
    | error e =>
      rw [hread] at hbefore
      cases hbefore
    | ok g =>
      rw [hread] at hbefore
      rw [GuestValue.eq_nil_of_isNil hbefore]
  · split at hafter
    · rename_i s hresult
      rw [hresult, eq_of_beq hafter]
    · cases hafter

/-- The interpreter of a pool that has one, made in an empty world. -/
def onlyMade : Interpreter := .plain strictLimits 1 0 4

/-- The second of two borrowers finds nothing under the name that the first one used, and his script
reads the value all the same, since the first one has changed the metatable of arrays. -/
theorem executed_of_shift_hidden : ∃ start ms stirred p i v,
    Shift strictLimits start {} ms stirred p v ∧ Move.execute 1 {} stashing hidden ∈ ms
      ∧ p.loan? 1 = some i ∧ 1 ∉ usedIn ms
      ∧ (i.getGlobal "leaked").run ((i.bind {} shown).run v).2
        = (.ok .nil, ((i.bind {} shown).run v).2)
      ∧ ((i.execute {} finding shown).run v).1.1 = .ok (.string "mine")
      ∧ ∃ stirred' q w, Concluded 1 p q ∧ Shift strictLimits start {}
        (.giveBack 1 9 :: .execute 1 {} finding shown :: ms) stirred' q w := by
  have ho : Opened single [] _ := ⟨.empty rfl, Nat.zero_le _⟩
  have h₀ := ho.shift strictLimits {}
  have h₁ := h₀.move (m := .request 7 3) List.not_mem_nil trivial rfl
  have h₂ := h₁.make (i := onlyMade) (show (Move.endCreation 1 (.ok onlyMade)).Allowed _ from
    ⟨⟨_, List.mem_cons_self, rfl, rfl⟩, fun i hi => by cases hi; rfl⟩)
    (World.run_newInterpreter rfl 1 4 {})
  have h₃ := h₂.move (m := .collect
    { id := 1, purpose := some (.request 7), outcome := some (.ok onlyMade) } (.ok onlyMade) 5)
    ⟨List.mem_cons_self, rfl⟩ trivial rfl
  have h₄ := h₃.moved (m := .execute 1 {} stashing hidden)
    ⟨List.mem_cons_self, isUse_execute _ _ _⟩ (Move.isLocal_execute _ _ _ _)
  have h₅ := h₄.moved (m := .giveBack 1 6)
    (show 1 ∈ List.map _ (loans _) by decide +kernel) trivial
  have h₆ := h₅.moved (m := .request 8 7) (show 8 ∉ Pool.keys _ by decide +kernel) trivial
  obtain ⟨i, hi, hsettled, hbefore, hafter⟩ := h₆.found 1 (by decide +kernel)
  have hfresh : 1 ∉ usedIn [.request 8 7, .giveBack 1 6, .execute 1 {} stashing hidden,
      .collect { id := 1, purpose := some (.request 7), outcome := some (.ok onlyMade) }
        (.ok onlyMade) 5, .endCreation 1 (.ok onlyMade), .request 7 3] := by decide
  obtain ⟨hread, q, w, -, hconcluded, -, stirred, hshift⟩ :=
    executed_of_shift ho (.empty World.regular_empty) rfl h₆ hi hfresh {} finding shown 9
  obtain ⟨r, hr, -⟩ := hread hsettled "leaked" (by decide)
  rw [hr] at hbefore
  obtain rfl : r = .nil := Except.ok.inj hbefore
  exact ⟨_, _, _, _, i, _, h₆, List.mem_cons_of_mem _ (List.mem_cons_of_mem _ List.mem_cons_self),
    hi, hfresh, hr, hafter, stirred, q, w, hconcluded, hshift⟩

end Pool
end ScriptPool
