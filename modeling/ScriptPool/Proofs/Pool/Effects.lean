import ScriptPool.Proofs.Pool.Balance
import ScriptPool.Proofs.Pool.Frame

/-!
# What operations of a pool change

Whatever a pool does is put together from a few operations, and most of these only move things on or
let go of them.  This file goes through the operations once and says of each what it brings in and
where it leaves the pool.  What a single field goes through is a matter of reading that off.

## What is here

* `Standing` — what hardly any operation touches: the configuration, whether the pool is open, the
  requests of the recent past, and how many interpreters were counted as made or as warmed up.
* `Receives` — what an operation adds to the queue, at most, and to the interpreters on loan.
  Whatever else is there after it was there before, nobody gets in line by it, what is in the making
  is the same, and so is the standing.
* `Served`, `Collected`, `TakenBack` — what comes of a request, of a creation and of a return.
* `Move.effect` — **what a move does**, in these terms.
* `Move.standing` — what a move makes of the standing, and `Move.waiters`: who gets in line.
-/

set_option autoImplicit false

namespace ScriptPool
namespace Pool

open Transition

variable {p q r : Pool} {queued lent queued' lent' : List Interpreter} {i : Interpreter}

/-! ## What operations bring in

Discarding, taking permits and planning bring in nothing.  An interpreter comes into the queue in
one place and on loan in another, and everything else is a sequence of such operations. -/

/-- What hardly any operation touches. -/
structure Standing where
  config : PoolConfig
  closed : Bool
  recent : RequestWindow
  created : Nat
  prewarmed : Nat

def standing (p : Pool) : Standing :=
  ⟨p.config, p.closed, p.recent, p.counters.created, p.counters.prewarmed⟩

/-- All that the relation between pools below is about. -/
def contents (p : Pool) :
    List Interpreter × List Interpreter × List Nat × List Creation × Nat × Standing :=
  (p.idle, p.loans, p.waiters, p.creations, p.nextId, p.standing)

/-- Nothing is in the queue that was not there and is not `queued`, nothing but `lent` is added to
what is on loan, and nobody gets in line.  The same things are in the making. -/
structure Receives (queued lent : List Interpreter) (p q : Pool) : Prop where
  idle : q.idle ⊆ p.idle ++ queued
  loans : q.loans = p.loans ++ lent
  waiters : q.waiters.Sublist p.waiters
  creations : q.creations = p.creations
  nextId : q.nextId = p.nextId
  standing : q.standing = p.standing

namespace Receives

/-- An operation that touches none of it. -/
theorem of_eq (h : q.contents = p.contents) : Receives [] [] p q := by
  simp only [contents, Prod.mk.injEq] at h
  obtain ⟨hidle, hloans, hwaiters, hcreations, hnext, hstanding⟩ := h
  exact ⟨by rw [hidle, List.append_nil]; exact List.Subset.refl _,
    by rw [hloans, List.append_nil], hwaiters ▸ List.Sublist.refl _, hcreations, hnext, hstanding⟩

theorem refl (p : Pool) : Receives [] [] p p := of_eq rfl

/-- One operation after another. -/
theorem trans (h : Receives queued lent p q) (h' : Receives queued' lent' q r) :
    Receives (queued ++ queued') (lent ++ lent') p r := by
  refine ⟨fun i hi => ?_, by rw [h'.loans, h.loans, List.append_assoc],
    h'.waiters.trans h.waiters, h'.creations.trans h.creations, h'.nextId.trans h.nextId,
    h'.standing.trans h.standing⟩
  rw [← List.append_assoc]
  exact List.append_subset.2 ⟨List.subset_append_of_subset_left _ h.idle,
    List.subset_append_right _ _⟩ (h'.idle hi)

/-- An operation after one that adds nothing. -/
theorem after (h : Receives queued lent q r) (h' : Receives [] [] p q) :
    Receives queued lent p r := h'.trans h

/-- An operation before one that adds nothing. -/
theorem before (h : Receives queued lent p q) (h' : Receives [] [] q r) :
    Receives queued lent p r := by
  have hboth := h.trans h'
  rwa [List.append_nil, List.append_nil] at hboth

/-- What adds nothing to the queue may be said to add something. -/
theorem weaken (h : Receives [] lent p q) : Receives queued lent p q := by
  have hidle := h.idle
  rw [List.append_nil] at hidle
  exact { h with idle := List.subset_append_of_subset_left _ hidle }

theorem mem_idle (h : Receives queued lent p q) (hi : i ∈ q.idle) : i ∈ p.idle ∨ i ∈ queued :=
  List.mem_append.1 (h.idle hi)

/-- An operation that adds nothing to the queue. -/
theorem idle_of_nil (h : Receives [] lent p q) (hi : i ∈ q.idle) : i ∈ p.idle :=
  (h.mem_idle hi).resolve_right List.not_mem_nil

/-- An operation that adds nothing to the interpreters on loan. -/
theorem loans_of_nil (h : Receives queued [] p q) : q.loans = p.loans :=
  h.loans.trans (List.append_nil _)

/-- Taking interpreters out of the queue. -/
theorem thin {idle : List Interpreter} (h : idle ⊆ p.idle) : Receives [] [] p { p with idle } :=
  ⟨List.subset_append_of_subset_left _ h, (List.append_nil _).symm, List.Sublist.refl _, rfl, rfl,
    rfl⟩

/-- Putting one into it. -/
theorem push (p : Pool) (i : Interpreter) :
    Receives [i] [] p { p with idle := p.idle ++ [i], available := p.available + 1 } :=
  ⟨List.Subset.refl _, (List.append_nil _).symm, List.Sublist.refl _, rfl, rfl, rfl⟩

/-- Somebody gets in line behind the others, whatever else happens. -/
theorem wait (h : Receives [] [] p q) (key : Nat) : Receives [] []
    { p with waiters := p.waiters ++ [key] } { q with waiters := q.waiters ++ [key] } :=
  { h with waiters := h.waiters.append (List.Sublist.refl _) }

end Receives

theorem receives_discard (p : Pool) (i : Interpreter) :
    Ensures (p.discard i) fun q => Receives [] [] p q :=
  (ensures_true _).bind fun _ _ => ensures_pure (.of_eq rfl)

theorem receives_discardAll (l : List Interpreter) :
    ∀ p : Pool, Ensures (p.discardAll l) fun q => Receives [] [] p q := by
  induction l with
  | nil => exact fun p => ensures_pure (.refl p)
  | cons i l ih =>
    exact fun p => (receives_discard p i).bind fun q hq => (ih q).mono fun _ hr => hr.after hq

theorem receives_addPermit (p : Pool) : Receives [] [] p p.addPermit := by
  rw [addPermit]
  split
  · rename_i key rest hw
    refine { Receives.of_eq (p := p) (q := p) rfl with waiters := ?_ }
    exact hw ▸ List.sublist_cons_self key rest
  · exact .of_eq rfl

theorem receives_addIdle (p : Pool) (i : Interpreter) :
    Ensures (p.addIdle i) fun q => Receives [i] [] p q := by
  rw [addIdle]
  split
  · exact (receives_discard p i).mono fun _ h => h.weaken
  · exact ensures_pure ((Receives.push p i).before (receives_addPermit _))

theorem receives_takeIdle? (h : p.takeIdle? = some (i, q)) : i ∈ p.idle ∧ Receives [] [] p q := by
  rw [takeIdle?] at h
  split at h
  · cases h
  · rename_i j hj
    obtain ⟨rfl, rfl⟩ := Prod.mk.inj (Option.some.inj h)
    refine ⟨List.mem_of_getElem? hj, ?_⟩
    exact (Receives.thin (List.eraseIdx_sublist _ _).subset).before (.of_eq rfl)

/-- Whatever is taken out of the queue to be lent was idle, and not marked as running a script. -/
theorem receives_checkOut (p : Pool) : Ensures p.checkOut fun r =>
    Receives [] [] p r.2 ∧ ∀ i, r.1 = some i → i ∈ p.idle ∧ i.executing = false := by
  rw [checkOut]
  split
  · exact ensures_pure ⟨.refl p, fun i hi => by cases hi⟩
  · rename_i j q hq
    obtain ⟨hmem, hrec⟩ := receives_takeIdle? hq
    split
    · exact (receives_discard q j).bind fun r hr =>
        ensures_pure ⟨hr.after hrec, fun i hi => by cases hi⟩
    · rename_i hexec
      refine ensures_pure ⟨hrec, fun i hi => ?_⟩
      obtain rfl := Option.some.inj hi
      exact ⟨hmem, Bool.not_eq_true _ ▸ hexec⟩

theorem receives_checkOutAny (n : Nat) : ∀ p : Pool, Ensures (checkOutAny n p) fun r =>
    Receives [] [] p r.2 ∧ ∀ i, r.1 = some i → i ∈ p.idle ∧ i.executing = false := by
  induction n with
  | zero => exact fun p => ensures_pure ⟨.refl p, fun i hi => by cases hi⟩
  | succ n ih =>
    intro p
    rw [checkOutAny]
    split
    · exact ensures_pure ⟨.refl p, fun i hi => by cases hi⟩
    · rename_i q hq
      obtain ⟨k, -, rfl⟩ := takePermit?_eq_some hq
      refine (receives_checkOut _).bind fun r hr => ?_
      have hfirst : Receives [] [] p r.2 := hr.1.after (.of_eq rfl)
      rcases r with ⟨_ | i, r⟩
      · refine (ih r).mono fun s hs => ⟨hs.1.after hfirst, fun i hi => ?_⟩
        obtain ⟨hmem, hexec⟩ := hs.2 i hi
        exact ⟨hfirst.idle_of_nil hmem, hexec⟩
      · exact ensures_pure ⟨hfirst, hr.2⟩

theorem receives_lend (p : Pool) (i : Interpreter) (now : Nat) :
    Receives [] [i.lent] p (p.lend i now) :=
  ⟨List.subset_append_left _ _, rfl, List.Sublist.refl _, rfl, rfl, rfl⟩

theorem receives_plan? {purpose : Purpose} (h : p.plan? purpose = some q) :
    Receives [] [] p q := by
  rw [plan?] at h
  split at h
  · cases h
  · obtain ⟨r, hr, rfl⟩ := Option.map_eq_some_iff.1 h
    rw [(reserve?_eq_some hr).2]
    exact .of_eq rfl

theorem receives_replace (p : Pool) : Receives [] [] p p.replace := by
  rw [replace]
  cases h : p.plan? .replacement with
  | none => exact .refl p
  | some q => exact receives_plan? h

theorem receives_recycle (p : Pool) (i : Interpreter) :
    Ensures (p.recycle i) fun q => Receives [] [] p q :=
  (receives_discard _ i).bind fun q hq =>
    ensures_pure ((receives_replace q).after (hq.after (.of_eq rfl)))

theorem receives_refill (n : Nat) : ∀ p : Pool, Receives [] [] p (refill n p) := by
  induction n with
  | zero => exact .refl
  | succ n ih =>
    intro p
    rw [refill]
    cases h : p.plan? .replacement with
    | none => exact .refl p
    | some q => exact (ih q).after (receives_plan? h)

theorem receives_grow (n : Nat) : ∀ p : Pool, Receives [] [] p (p.grow n).2 := by
  induction n with
  | zero => exact .refl
  | succ n ih =>
    intro p
    rw [grow]
    cases h : p.plan? .growth with
    | none => exact .refl p
    | some q => exact (ih q).after (receives_plan? h)

theorem receives_shrink (n : Nat) :
    ∀ p : Pool, Ensures (p.shrink n) fun r => Receives [] [] p r.2 := by
  induction n with
  | zero => exact fun p => ensures_pure (.refl p)
  | succ n ih =>
    intro p
    rw [shrink]
    split
    · exact ensures_pure (.refl p)
    · split
      · exact ensures_pure (.refl p)
      · rename_i q hq
        obtain ⟨k, -, rfl⟩ := takePermit?_eq_some hq
        split
        · exact ensures_pure (.of_eq rfl)
        · refine (receives_discard _ _).bind fun r hr => (ih r).bind fun s hs => ensures_pure ?_
          have hthin := Receives.thin (p := p) (List.dropLast_sublist _).subset
          exact hs.after (hr.after (hthin.before (.of_eq rfl)))

/-- Sweeping cuts the queue in two: those that are taken, no more than allowed, and the others. -/
theorem splitStale_cut (stale : Interpreter → Bool) (n : Nat) (l : List Interpreter) :
    ((splitStale stale n l).1 ++ (splitStale stale n l).2).Perm l
      ∧ (splitStale stale n l).1.length ≤ n := by
  induction l generalizing n with
  | nil => exact ⟨List.Perm.refl _, Nat.zero_le _⟩
  | cons i l ih =>
    unfold splitStale
    split
    · cases n with
      | zero => exact ⟨List.Perm.refl _, Nat.zero_le _⟩
      | succ n => exact ⟨(ih n).1.cons i, Nat.succ_le_succ (ih n).2⟩
    · exact ⟨List.perm_middle.trans ((ih n).1.cons i), (ih n).2⟩

theorem receives_sweep (p : Pool) (now : Nat) :
    Ensures (p.sweep now) fun r => Receives [] [] p r.2 := by
  refine (receives_discardAll _ _).bind fun q hq => ensures_pure ?_
  refine (receives_refill _ q).after (hq.after ?_)
  refine (Receives.thin (p := p) fun i hi => ?_).before (.of_eq rfl)
  exact (splitStale_cut _ _ _).1.subset (List.mem_append_right _ hi)

theorem receives_drain (p : Pool) : Ensures p.drain fun q => Receives [] [] p q := by
  refine (receives_discardAll p.idle _).bind fun q hq => ensures_pure ?_
  have hall : Receives [] [] p q :=
    hq.after ((Receives.thin (p := p) (List.nil_subset _)).before (.of_eq rfl))
  exact hall.before (.of_eq rfl)

/-! ## What comes of requests, creations and returns -/

/-- What a request that is served as far as possible comes to: it gets an interpreter out of the
queue, a creation begins for it, or it gets in line at most. -/
inductive Served (key : Nat) (p : Pool) : Pool → Prop where
  | waiting {q : Pool} (h : Receives [] [] { p with waiters := p.waiters ++ [key] } q) :
      Served key p q
  | lent {q : Pool} {i : Interpreter} (idle : i ∈ p.idle) (resting : i.executing = false)
      (h : Receives [] [i.lent] p q) : Served key p q
  | creating {q : Pool} (h : Receives [] [] p q) : Served key p (q.begin (.request key))

theorem Served.after {key : Nat} (h : Served key q r) (h' : Receives [] [] p q) :
    Served key p r := by
  cases h with
  | waiting h => exact .waiting (h.after (h'.wait key))
  | lent idle resting h => exact .lent (h'.idle_of_nil idle) resting (h.after h')
  | creating h => exact .creating (h.after h')

theorem Served.standing {key : Nat} (h : Served key p q) : q.standing = p.standing := by
  cases h with
  | waiting h => exact h.standing
  | lent _ _ h => exact h.standing
  | creating h => exact h.standing

theorem Served.mem_idle {key : Nat} (h : Served key p q) (hi : i ∈ q.idle) : i ∈ p.idle := by
  cases h with
  | waiting h => exact h.idle_of_nil hi
  | lent _ _ h => exact h.idle_of_nil hi
  | creating h => exact h.idle_of_nil hi

/-- A request is lent one interpreter at most, which was idle. -/
theorem Served.loans {key : Nat} (h : Served key p q) : q.loans = p.loans
    ∨ ∃ i ∈ p.idle, i.executing = false ∧ q.loans = p.loans ++ [i.lent] := by
  cases h with
  | waiting h => exact .inl h.loans_of_nil
  | lent idle resting h => exact .inr ⟨_, idle, resting, h.loans⟩
  | creating h => exact .inl h.loans_of_nil

/-- A request begins one creation at most. -/
theorem Served.creations {key : Nat} (h : Served key p q) :
    q.creations = p.creations ∧ q.nextId = p.nextId
      ∨ ∃ r : Pool, r.creations = p.creations ∧ r.nextId = p.nextId
        ∧ q = r.begin (.request key) := by
  cases h with
  | waiting h => exact .inl ⟨h.creations, h.nextId⟩
  | lent _ _ h => exact .inl ⟨h.creations, h.nextId⟩
  | creating h => exact .inr ⟨_, h.creations, h.nextId, rfl⟩

theorem served_serve (p : Pool) (key now : Nat) (waitedBefore : Bool) :
    Ensures (p.serve key now waitedBefore) fun r => Served key p r.2 := by
  rw [serve]
  split
  · refine ensures_pure (.waiting { Receives.of_eq (p := p) (q := p) rfl with waiters := ?_ })
    exact List.sublist_append_left _ _
  · refine (receives_checkOutAny p.permits p).bind fun r hr => ?_
    obtain ⟨hrec, hmem⟩ := hr
    rcases r with ⟨_ | i, r⟩
    · dsimp only
      cases hres : r.reserve? with
      | some q =>
        refine ensures_pure (.creating ?_)
        rw [(reserve?_eq_some hres).2]
        exact hrec.before (.of_eq rfl)
      | none =>
        refine ensures_pure (.waiting ?_)
        cases waitedBefore with
        | true => exact hrec.wait key
        | false =>
          have hnote : Receives [] [] p r.noteWait := hrec.before (.of_eq rfl)
          exact hnote.wait key
    · obtain ⟨hidle, hexec⟩ := hmem i rfl
      exact ensures_pure (.lent hidle hexec ((receives_lend r i now).after hrec))

/-- A request is noted when it begins. -/
theorem served_request (p : Pool) (key now : Nat) : Ensures (p.request key now) fun r =>
    Served key { p with recent := p.recent.record now } r.2 :=
  (served_serve _ key now false).mono fun _ h => h.after (.of_eq rfl)

theorem served_resume (p : Pool) (key now : Nat) :
    Ensures (p.resume key now) fun r => Served key p r.2 := by
  rw [resume]
  refine (receives_checkOut _).bind fun r hr => ?_
  have hrec : Receives [] [] p r.2 := hr.1.after (.of_eq rfl)
  rcases r with ⟨_ | i, r⟩
  · exact (served_serve r key now true).mono fun s hs => hs.after hrec
  · obtain ⟨hidle, hexec⟩ := hr.2 i rfl
    exact ensures_pure (.lent hidle hexec ((receives_lend r i now).after hrec))

/-- The number of the interpreter that a creation brings to somebody who wants it, if it does. -/
def Creation.brings? (c : Creation) (outcome : Except InterpreterError Interpreter) : Option Nat :=
  match c.purpose, outcome with
  | some _, .ok i => some i.id
  | _, _ => none

theorem Creation.brings?_eq_some {c : Creation} {outcome : Except InterpreterError Interpreter}
    {id : Nat} : Creation.brings? c outcome = some id
      ↔ c.purpose.isSome = true ∧ ∃ i, outcome = .ok i ∧ i.id = id := by
  rw [Creation.brings?.eq_def]
  cases c.purpose <;> cases outcome <;> simp

/-- What becomes of an interpreter that a creation has brought: it is counted as made and gets into
the queue or on loan, if anybody wants it. -/
inductive Collected (c : Creation) (outcome : Except InterpreterError Interpreter) (p q : Pool) :
    Prop where
  | none (brings : Creation.brings? c outcome = .none)
      (h : Receives [] [] (p.dropCreation c.id) q)
  | queued {i : Interpreter} (ok : outcome = .ok i)
      (brings : Creation.brings? c outcome = some i.id)
      (h : Receives [i] [] (p.dropCreation c.id).noteCreated q)
  | lent {i : Interpreter} {key : Nat} (wanted : c.purpose = some (.request key))
      (ok : outcome = .ok i) (h : Receives [] [i.lent] (p.dropCreation c.id).noteCreated q)

theorem collected_collect (p : Pool) (c : Creation) (outcome : Except InterpreterError Interpreter)
    (now : Nat) : Ensures (p.collect c outcome now) fun r => Collected c outcome p r.2 := by
  unfold collect
  cases hp : c.purpose with
  | none =>
    have hnone : Creation.brings? c outcome = .none := by
      rw [Creation.brings?.eq_def, hp]
    cases outcome with
    | error e => exact ensures_pure (.none hnone (.refl _))
    | ok i => exact (ensures_true _).bind fun _ _ => ensures_pure (.none hnone (.refl _))
  | some purpose =>
    cases outcome with
    | error e =>
      have hnone : Creation.brings? c (.error e) = .none := by
        rw [Creation.brings?.eq_def, hp]
      cases purpose <;> exact ensures_pure (.none hnone (.of_eq rfl))
    | ok i =>
      have hsome : Creation.brings? c (.ok i) = some i.id := by
        rw [Creation.brings?.eq_def, hp]
      cases purpose with
      | request key => exact ensures_pure (.lent hp rfl (receives_lend _ i now))
      | replacement =>
        exact (receives_addIdle _ i).bind fun q hq => ensures_pure (.queued rfl hsome hq)
      | growth =>
        exact (receives_addIdle _ i).bind fun q hq =>
          ensures_pure (.queued rfl hsome (hq.after (.of_eq rfl)))

/-- What an interpreter brings to the standing when it joins a pool: it is counted as made. -/
theorem Collected.standing {c : Creation} {outcome : Except InterpreterError Interpreter}
    (h : Collected c outcome p q) : q.standing = { p.standing with
      created := p.counters.created + (Creation.brings? c outcome).toList.length } := by
  cases h with
  | none brings h => rw [h.standing, brings]; rfl
  | queued ok brings h => rw [h.standing, brings]; rfl
  | lent wanted ok h =>
    rw [h.standing, Creation.brings?.eq_def, wanted, ok]
    rfl

theorem Collected.mem_idle {c : Creation} {outcome : Except InterpreterError Interpreter}
    (h : Collected c outcome p q) (hi : i ∈ q.idle) : i ∈ p.idle ∨ outcome = .ok i := by
  cases h with
  | none _ h => exact .inl (h.idle_of_nil hi)
  | queued ok _ h =>
    refine (h.mem_idle hi).imp_right fun hi => ?_
    obtain rfl := List.mem_singleton.1 hi
    exact ok
  | lent _ _ h => exact .inl (h.idle_of_nil hi)

theorem Collected.loans {c : Creation} {outcome : Except InterpreterError Interpreter}
    (h : Collected c outcome p q) :
    q.loans = p.loans ∨ ∃ i, outcome = .ok i ∧ q.loans = p.loans ++ [i.lent] := by
  cases h with
  | none _ h => exact .inl h.loans_of_nil
  | queued _ _ h => exact .inl h.loans_of_nil
  | lent _ ok h => exact .inr ⟨_, ok, h.loans⟩

theorem Collected.creations {c : Creation} {outcome : Except InterpreterError Interpreter}
    (h : Collected c outcome p q) :
    q.creations = (p.dropCreation c.id).creations ∧ q.nextId = p.nextId := by
  cases h with
  | none _ h => exact ⟨h.creations, h.nextId⟩
  | queued _ _ h => exact ⟨h.creations, h.nextId⟩
  | lent _ _ h => exact ⟨h.creations, h.nextId⟩

theorem Collected.waiters {c : Creation} {outcome : Except InterpreterError Interpreter}
    (h : Collected c outcome p q) : q.waiters.Sublist p.waiters := by
  cases h with
  | none _ h => exact h.waiters
  | queued _ _ h => exact h.waiters
  | lent _ _ h => exact h.waiters

/-- What becomes of an interpreter that is handed back: it is let go of, or it is neither worn nor
tainted and gets into the queue as it was, with its reset noted. -/
inductive TakenBack (i : Interpreter) (now : Nat) (p q : Pool) : Prop where
  | discarded (h : Receives [] [] (p.endLoan i.id now) q)
  | queued (fresh : p.isWorn i = false) (untainted : i.tainted = none)
      (h : Receives [({ i with wasReset := true } : Interpreter).handedBack now] []
        (p.endLoan i.id now) q)

theorem takenBack_takeBack (p : Pool) (i : Interpreter) (now : Nat) :
    Ensures (p.takeBack i now) fun q => TakenBack i now p q := by
  rw [takeBack]
  show Ensures (if (p.endLoan i.id now).closed then _ else _) _
  split
  · exact (receives_discard _ i).mono fun _ h => .discarded h
  · show Ensures (if p.isWorn i then _ else _) _
    split
    · exact (receives_recycle _ i).mono fun _ h => .discarded h
    · rename_i hworn
      refine i.ensures_reset.bind fun r hr => ?_
      cases hr with
      | failed e => exact (receives_recycle _ i).mono fun _ h => .discarded h
      | succeeded untainted =>
        exact (receives_addIdle _ _).mono fun _ h =>
          .queued (Bool.not_eq_true _ ▸ hworn) untainted h

/-- Either way the loan is over, and the rest is as before. -/
theorem TakenBack.receives {now : Nat} (h : TakenBack i now p q) :
    ∃ queued, Receives queued [] (p.endLoan i.id now) q := by
  cases h with
  | discarded h => exact ⟨_, h⟩
  | queued _ _ h => exact ⟨_, h⟩

theorem TakenBack.mem_idle {now : Nat} {j : Interpreter} (h : TakenBack i now p q)
    (hj : j ∈ q.idle) : j ∈ p.idle ∨ p.isWorn i = false ∧ i.tainted = none
      ∧ j = ({ i with wasReset := true } : Interpreter).handedBack now := by
  cases h with
  | discarded h => exact .inl (h.idle_of_nil hj)
  | queued fresh untainted h =>
    exact (h.mem_idle hj).imp_right fun hj => ⟨fresh, untainted, List.mem_singleton.1 hj⟩

/-- Handing back what is not on loan does nothing. -/
theorem giveBack_cases (p : Pool) (id now : Nat) : Ensures (p.giveBack id now) fun q =>
    q = p ∨ ∃ i, p.loan? id = some i ∧ TakenBack i now p q := by
  rw [giveBack]
  split
  · exact ensures_pure (.inl rfl)
  · rename_i i hi
    exact (takenBack_takeBack p i now).mono fun q h => .inr ⟨i, hi, h⟩

/-- Nobody waits for a creation, so there is none to be abandoned. -/
theorem map_without_of_not_any {key : Nat} {l : List Creation}
    (h : ¬ l.any (Creation.isFor · key) = true) : l.map (Creation.without key) = l := by
  refine (List.map_congr_left fun c hc => ?_).trans (List.map_id l)
  rw [Creation.without, if_neg fun hfor => h (List.any_eq_true.2 ⟨c, hc, hfor⟩), id]

theorem receives_giveUp (p : Pool) (key : Nat) : Receives [] []
    { p with creations :=
        if key ∈ p.granted then p.creations else p.creations.map (Creation.without key) }
    (p.giveUp key) := by
  by_cases hg : key ∈ p.granted
  · rw [if_pos hg, giveUp, if_pos (List.contains_iff_mem.2 hg)]
    exact (receives_addPermit _).after (.of_eq rfl)
  · rw [if_neg hg, giveUp, if_neg fun hk => hg (List.contains_iff_mem.1 hk)]
    split
    · exact .of_eq rfl
    · rename_i hc
      rw [map_without_of_not_any hc]
      exact { Receives.of_eq (p := p) (q := p) rfl with waiters := List.erase_sublist }

/-! ## What moves do

A move is one of these operations, or it touches a field and nothing else. -/

/-- What a move does, in a world. -/
def Move.Effect (w : World) (p q : Pool) : Move → Prop
  | .request key now => Served key { p with recent := p.recent.record now } q
  | .resume key _ => Served key p q
  | .giveUp key => Receives [] []
      { p with creations :=
          if key ∈ p.granted then p.creations else p.creations.map (Creation.without key) } q
  | .begin purpose => ∃ r, Receives [] [] p r ∧ q = r.begin purpose
  | .endCreation id outcome => q = p.endCreation id outcome
  | .collect c outcome _ => Collected c outcome p q
  | .giveBack id now => ∃ i, p.loan? id = some i ∧ TakenBack i now p q
  | .onLoan id use => ∃ i, p.loan? id = some i ∧ q = { p with
      loans := p.loans.map fun other => if other.id == id then ((use i).run w).1.2 else other }
  | .look now => Receives [] [] (p.snapshot now).2 q
  | .notePrewarmed => Receives [] [] p.notePrewarmed q
  | .close => Receives [] [] p.close q
  | _ => Receives [] [] p q

theorem exists_loan? {id : Nat} (h : id ∈ p.loans.map (·.id)) :
    ∃ i, p.loan? id = some i := by
  obtain ⟨i, hi, hid⟩ := List.mem_map.1 h
  exact Option.isSome_iff_exists.1 (List.find?_isSome.2 ⟨i, hi, beq_iff_eq.2 hid⟩)

/-- **What a move does.** -/
theorem Move.effect {m : Move} {w w' : World} (ha : m.Allowed p)
    (hrun : (m.apply p).run w = (q, w')) : m.Effect w p q := by
  have hpure : ∀ {r : Pool}, m.apply p = pure r → r = q := fun he => by
    rw [he] at hrun
    exact congrArg Prod.fst hrun
  cases m with
  | request key now => exact (served_request p key now).snd.of_run hrun
  | resume key now => exact (served_resume p key now).snd.of_run hrun
  | turnAway key =>
    obtain rfl := hpure rfl
    exact { Receives.of_eq (p := p) (q := p) rfl with waiters := List.erase_sublist }
  | giveUp key =>
    obtain rfl := hpure rfl
    exact receives_giveUp p key
  | begin purpose =>
    obtain rfl := hpure rfl
    exact ⟨{ p with planned := p.planned.erase purpose }, .of_eq rfl, rfl⟩
  | endCreation id outcome => exact (hpure rfl).symm
  | collect c outcome now => exact (collected_collect p c outcome now).snd.of_run hrun
  | giveBack id now =>
    obtain ⟨i, hi⟩ := exists_loan? ha
    refine ⟨i, hi, Ensures.of_run ?_ hrun⟩
    show Ensures (p.giveBack id now) _
    rw [Pool.giveBack, hi]
    exact takenBack_takeBack p i now
  | onLoan id use =>
    obtain ⟨i, hi⟩ := exists_loan? ha.1
    refine ⟨i, hi, (congrArg Prod.fst hrun).symm.trans ?_⟩
    show ((p.onLoan id use).run w).1.2 = _
    rw [Pool.onLoan, hi]
    rfl
  | grow count =>
    obtain rfl := hpure rfl
    exact receives_grow count p
  | shrink count => exact (receives_shrink count p).snd.of_run hrun
  | sweep now => exact (receives_sweep p now).snd.of_run hrun
  | drain => exact (receives_drain p).of_run hrun
  | _ =>
    obtain rfl := hpure rfl
    exact .of_eq rfl

/-- The number of the interpreter that joins the pool by a move, if one does. -/
def Move.joins? : Move → Option Nat
  | .collect c outcome _ => Creation.brings? c outcome
  | _ => none

/-- What a move makes of the standing of a pool. -/
def Move.next (s : Standing) : Move → Standing
  | .request _ now => { s with recent := s.recent.record now }
  | .look now => { s with recent := (s.recent.count now).2 }
  | .collect c outcome _ =>
      { s with created := s.created + (Creation.brings? c outcome).toList.length }
  | .notePrewarmed => { s with prewarmed := s.prewarmed + 1 }
  | .close => { s with closed := true }
  | _ => s

/-- **What a move makes of the standing,** read off from what it does. -/
theorem Move.standing (p : Pool) (m : Move) :
    Ensures (m.apply p) fun q => q.standing = m.next p.standing := by
  cases m with
  | request key now => exact ((served_request p key now).mono fun _ h => h.standing).snd
  | resume key now => exact ((served_resume p key now).mono fun _ h => h.standing).snd
  | giveUp key => exact ensures_pure (receives_giveUp p key).standing
  | collect c outcome now =>
    exact ((collected_collect p c outcome now).mono fun _ h => h.standing).snd
  | giveBack id now =>
    refine (giveBack_cases p id now).mono fun q hq => ?_
    rcases hq with rfl | ⟨i, -, htaken⟩
    · rfl
    · obtain ⟨queued, h⟩ := htaken.receives
      exact h.standing
  | onLoan id use =>
    have huse : Ensures (p.onLoan id use) fun r => r.2.standing = p.standing := by
      rw [Pool.onLoan]
      split
      · exact ensures_pure rfl
      · exact (ensures_true _).bind fun _ _ => ensures_pure rfl
    exact huse.snd
  | grow count => exact ensures_pure (receives_grow count p).standing
  | shrink count => exact ((receives_shrink count p).mono fun _ h => h.standing).snd
  | sweep now => exact ((receives_sweep p now).mono fun _ h => h.standing).snd
  | drain => exact (receives_drain p).mono fun _ h => h.standing
  | _ => exact ensures_pure rfl

/-- A pool is for one configuration all the time. -/
theorem Move.config (p : Pool) (m : Move) : Ensures (m.apply p) fun q => q.config = p.config := by
  refine (Move.standing p m).mono fun q hq => ?_
  have hconfig : q.config = (m.next p.standing).config := congrArg Standing.config hq
  rw [hconfig]
  cases m <;> rfl

/-- A pool that was closed stays closed. -/
theorem Move.closed (m : Move) (hclosed : p.closed = true) :
    Ensures (m.apply p) fun q => q.closed = true := by
  refine (Move.standing p m).mono fun q hq => ?_
  have hq : q.closed = (m.next p.standing).closed := congrArg Standing.closed hq
  rw [hq, ← hclosed]
  cases m with
  | close => exact hclosed.symm
  | _ => rfl

/-- Does a move let somebody get in line, or close the pool? -/
def Move.IsEntry : Move → Prop
  | .request _ _ => True
  | .resume _ _ => True
  | .close => True
  | _ => False

/-- **Nobody gets in line** by a move that is not meant for it. -/
theorem Move.waiters {m : Move} (ha : m.Allowed p) {w w' : World}
    (hrun : (m.apply p).run w = (q, w')) (hm : ¬ m.IsEntry) : q.waiters.Sublist p.waiters := by
  have heffect := Move.effect ha hrun
  cases m with
  | request key now => exact absurd trivial hm
  | resume key now => exact absurd trivial hm
  | close => exact absurd trivial hm
  | begin purpose =>
    obtain ⟨r, h, rfl⟩ := heffect
    exact h.waiters
  | endCreation id outcome =>
    obtain rfl : q = p.endCreation id outcome := heffect
    exact List.Sublist.refl _
  | collect c outcome now => exact heffect.waiters
  | giveBack id now =>
    obtain ⟨i, -, htaken⟩ := heffect
    obtain ⟨queued, h⟩ := htaken.receives
    exact h.waiters
  | onLoan id use =>
    obtain ⟨i, -, rfl⟩ := heffect
    exact List.Sublist.refl _
  | _ => exact heffect.waiters

end Pool
end ScriptPool
