import ScriptPool.Proofs.Pool.Accounts

/-!
# Where what is in a pool comes from

Interpreters get into the queue, on loan and into the making in few places, and what a move does
says which.

## What is here

* `Move.loans` — **what a move makes of the loans.**
* `Move.mem_idle` and `Move.mem_loans` — **where an interpreter that is idle, or on loan, after a
  move comes from**: it was in the same place before, or a creation has just brought it, or it has
  changed from one place to the other, and then the lemmas say in which condition it was.
* `Move.stays_on_loan` — what is on loan stays so until it is handed back.
* `Move.mem_creations` — where a creation comes from.
* `Opening.inside` — a pool that is being opened has nothing but what was made for it.
-/

set_option autoImplicit false

namespace ScriptPool
namespace Pool

open Transition

variable {p q : Pool} {i : Interpreter}

/-! ## Where an idle interpreter comes from -/

/-- What a move brings into the queue: what came of a creation, or an interpreter that was handed
back neither worn nor tainted, as it was and with its reset noted. -/
inductive Move.Queues (p : Pool) : Move → Interpreter → Prop where
  | made {c : Creation} {i : Interpreter} {now : Nat} (mem : c ∈ p.creations)
      (ok : c.outcome = some (.ok i)) : Queues p (.collect c (.ok i) now) i
  | back {id now : Nat} {i : Interpreter} (loan : p.loan? id = some i) (fresh : p.isWorn i = false)
      (untainted : i.tainted = none) :
      Queues p (.giveBack id now) (({ i with wasReset := true } : Interpreter).handedBack now)

/-- **Where an idle interpreter comes from.** -/
theorem Move.mem_idle {m : Move} {w w' : World} (ha : m.Allowed p)
    (hrun : (m.apply p).run w = (q, w')) (hi : i ∈ q.idle) : i ∈ p.idle ∨ m.Queues p i := by
  have heffect := Move.effect ha hrun
  cases m with
  | request key now =>
    have h : Served key { p with recent := p.recent.record now } q := heffect
    exact .inl (h.mem_idle hi)
  | resume key now => exact .inl (Served.mem_idle heffect hi)
  | giveUp key => exact .inl (heffect.idle_of_nil hi)
  | begin purpose =>
    obtain ⟨r, h, rfl⟩ := heffect
    exact .inl (h.idle_of_nil hi)
  | endCreation id outcome =>
    obtain rfl : q = p.endCreation id outcome := heffect
    exact .inl hi
  | collect c outcome now =>
    refine (Collected.mem_idle heffect hi).imp_right ?_
    rintro rfl
    exact .made ha.1 ha.2
  | giveBack id now =>
    obtain ⟨j, hj, htaken⟩ := heffect
    refine (htaken.mem_idle hi).imp_right ?_
    rintro ⟨fresh, untainted, rfl⟩
    exact .back hj fresh untainted
  | onLoan id use =>
    obtain ⟨j, -, rfl⟩ := heffect
    exact .inl hi
  | _ => exact .inl (heffect.idle_of_nil hi)

/-! ## Loans

A move lends one interpreter, or takes one back, or one of them is used; nothing else happens to the
loans.  So it is enough to go through the moves once, and what is asked about loans is answered by
these few cases. -/

/-- What a move lends out: an idle interpreter that is not marked as running a script, or what came
of a creation. -/
inductive Move.Lends (p : Pool) : Move → Interpreter → Prop where
  | idle {m : Move} {i : Interpreter} (mem : i ∈ p.idle) (resting : i.executing = false) :
      Lends p m i.lent
  | made {c : Creation} {i : Interpreter} {now : Nat} (mem : c ∈ p.creations)
      (ok : c.outcome = some (.ok i)) : Lends p (.collect c (.ok i) now) i.lent

/-- What a move makes of the loans: one more at the end, one less, one of them used, or nothing. -/
inductive Move.Loans (w : World) (p q : Pool) (m : Move) : Prop where
  | same (loans : q.loans = p.loans)
  | lent {i : Interpreter} (lends : m.Lends p i) (loans : q.loans = p.loans ++ [i])
  | back {id now : Nat} (is : m = .giveBack id now)
      (loans : q.loans = p.loans.filter fun i => i.id != id)
  | used {id : Nat} {use : Interpreter → Transition (Unit × Interpreter)} {i : Interpreter}
      (is : m = .onLoan id use) (loan : p.loan? id = some i)
      (loans : q.loans = p.loans.map fun other =>
        if other.id == id then ((use i).run w).1.2 else other)
      (numbers : q.loans.map (·.id) = p.loans.map (·.id))

/-- **What a move makes of the loans.** -/
theorem Move.loans {m : Move} {w w' : World} (ha : m.Allowed p)
    (hrun : (m.apply p).run w = (q, w')) : m.Loans w p q := by
  have heffect := Move.effect ha hrun
  have hserved : q.loans = p.loans ∨ (∃ i ∈ p.idle, i.executing = false
      ∧ q.loans = p.loans ++ [i.lent]) → m.Loans w p q := by
    rintro (h | ⟨i, idle, resting, h⟩)
    · exact .same h
    · exact .lent (.idle idle resting) h
  cases m with
  | request key now =>
    have h : Served key { p with recent := p.recent.record now } q := heffect
    exact hserved h.loans
  | resume key now => exact hserved (Served.loans heffect)
  | giveUp key => exact .same heffect.loans_of_nil
  | begin purpose =>
    obtain ⟨r, h, rfl⟩ := heffect
    exact .same h.loans_of_nil
  | endCreation id outcome =>
    obtain rfl : q = p.endCreation id outcome := heffect
    exact .same rfl
  | collect c outcome now =>
    rcases Collected.loans heffect with h | ⟨i, rfl, h⟩
    · exact .same h
    · exact .lent (.made ha.1 ha.2) h
  | giveBack id now =>
    obtain ⟨j, hj, htaken⟩ := heffect
    obtain ⟨queued, h⟩ := htaken.receives
    obtain rfl : j.id = id := by simpa using List.find?_some hj
    exact .back rfl h.loans_of_nil
  | onLoan id use =>
    obtain ⟨j, hj, rfl⟩ := heffect
    refine .used rfl hj rfl ?_
    obtain ⟨executing, tainted, wasReset, huse⟩ := ha.2 j w
    rw [List.map_map]
    refine List.map_congr_left fun other _ => ?_
    show (if other.id == id then ((use j).run w).1.2 else other).id = other.id
    split
    · rename_i heq
      rw [huse]
      exact (by simpa using List.find?_some hj : j.id = id).trans (beq_iff_eq.1 heq).symm
    · rfl
  | _ => exact .same heffect.loans_of_nil

/-- **Where an interpreter on loan comes from.**  If it was on loan before, then it is as it was, or
the move is what its borrower did with it. -/
theorem Move.mem_loans {m : Move} {w w' : World} (ha : m.Allowed p)
    (hrun : (m.apply p).run w = (q, w')) (hi : i ∈ q.loans) :
    i ∈ p.loans ∨ m.Lends p i
      ∨ ∃ id use j, m = .onLoan id use ∧ p.loan? id = some j ∧ i = ((use j).run w).1.2 := by
  cases Move.loans ha hrun with
  | same loans => exact .inl (loans ▸ hi)
  | lent lends loans =>
    rw [loans] at hi
    refine (List.mem_append.1 hi).imp_right fun hi => ?_
    obtain rfl := List.mem_singleton.1 hi
    exact .inl lends
  | back _ loans => exact .inl (List.mem_filter.1 (loans ▸ hi)).1
  | @used id use j is loan loans _ =>
    rw [loans] at hi
    obtain ⟨other, ho, rfl⟩ := List.mem_map.1 hi
    split
    · exact .inr (.inr ⟨id, use, j, is, loan, rfl⟩)
    · exact .inl ho

/-- **What is on loan stays so** until it is handed back. -/
theorem Move.stays_on_loan {m : Move} {w w' : World} {id : Nat} (ha : m.Allowed p)
    (hrun : (m.apply p).run w = (q, w')) (hid : id ∈ p.loans.map (·.id))
    (hm : ∀ now, m ≠ .giveBack id now) : id ∈ q.loans.map (·.id) := by
  cases Move.loans ha hrun with
  | same loans => rwa [loans]
  | lent _ loans =>
    rw [loans, List.map_append]
    exact List.mem_append_left _ hid
  | @back other now is loans =>
    have hne : id ≠ other := fun h => hm now (h ▸ is)
    obtain ⟨i, hi, rfl⟩ := List.mem_map.1 hid
    rw [loans]
    exact List.mem_map_of_mem (List.mem_filter.2 ⟨hi, bne_iff_ne.2 hne⟩)
  | used _ _ _ numbers => rwa [numbers]

/-! ## Creations -/

/-- What a creation was before a move: the same, or one that the move has ended; or it has only
begun, with the next number. -/
inductive Move.Continues (p : Pool) (m : Move) (c : Creation) : Prop where
  | same {d : Creation} (mem : d ∈ p.creations) (number : c.id = d.id)
      (outcome : c.outcome = d.outcome)
  | ended {d : Creation} {result : Except InterpreterError Interpreter} (mem : d ∈ p.creations)
      (number : c.id = d.id) (is : m = .endCreation d.id result) (outcome : c.outcome = some result)
  | begun (number : c.id = p.nextId) (outcome : c.outcome = none)

/-- **Where a creation comes from.**  Numbers are given out in order. -/
theorem Move.mem_creations {m : Move} {w w' : World} (ha : m.Allowed p)
    (hrun : (m.apply p).run w = (q, w')) :
    p.nextId ≤ q.nextId ∧ ∀ c ∈ q.creations, m.Continues p c := by
  have heffect := Move.effect ha hrun
  have hkeep : ∀ {l : List Creation}, l ⊆ p.creations → q.creations = l ∧ q.nextId = p.nextId →
      p.nextId ≤ q.nextId ∧ ∀ c ∈ q.creations, m.Continues p c := fun hsub h =>
    ⟨Nat.le_of_eq h.2.symm, fun c hc => .same (hsub (h.1 ▸ hc)) rfl rfl⟩
  have hsame : q.creations = p.creations ∧ q.nextId = p.nextId →
      p.nextId ≤ q.nextId ∧ ∀ c ∈ q.creations, m.Continues p c := hkeep (List.Subset.refl _)
  have hbegin : ∀ {purpose : Purpose}, (q.creations = p.creations ∧ q.nextId = p.nextId
      ∨ ∃ r : Pool, r.creations = p.creations ∧ r.nextId = p.nextId ∧ q = r.begin purpose) →
      p.nextId ≤ q.nextId ∧ ∀ c ∈ q.creations, m.Continues p c := by
    rintro purpose (h | ⟨r, hcreations, hnext, rfl⟩)
    · exact hsame h
    · refine ⟨Nat.le_succ_of_le (Nat.le_of_eq hnext.symm), fun c hc => ?_⟩
      rcases List.mem_append.1 hc with hc | hc
      · exact .same (hcreations ▸ hc) rfl rfl
      · obtain rfl := List.mem_singleton.1 hc
        exact .begun hnext rfl
  cases m with
  | request key now =>
    have h : Served key { p with recent := p.recent.record now } q := heffect
    exact hbegin h.creations
  | resume key now => exact hbegin (Served.creations heffect)
  | begin purpose =>
    obtain ⟨r, h, hq⟩ := heffect
    exact hbegin (.inr ⟨r, h.creations, h.nextId, hq⟩)
  | giveUp key =>
    refine ⟨Nat.le_of_eq heffect.nextId.symm, fun c hc => ?_⟩
    rw [heffect.creations] at hc
    dsimp only at hc
    split at hc
    · exact .same hc rfl rfl
    · obtain ⟨d, hd, rfl⟩ := List.mem_map.1 hc
      exact .same hd (Creation.without_id key d) (Creation.without_outcome key d)
  | endCreation id outcome =>
    obtain rfl : q = p.endCreation id outcome := heffect
    refine ⟨Nat.le_refl _, fun c hc => ?_⟩
    obtain ⟨d, hd, rfl⟩ := List.mem_map.1 hc
    split
    · rename_i hid
      obtain rfl := beq_iff_eq.1 hid
      exact .ended hd rfl rfl rfl
    · exact .same hd rfl rfl
  | collect c outcome now =>
    exact hkeep List.filter_sublist.subset (Collected.creations heffect)
  | giveBack id now =>
    obtain ⟨j, -, htaken⟩ := heffect
    obtain ⟨queued, h⟩ := htaken.receives
    exact hsame ⟨h.creations, h.nextId⟩
  | onLoan id use =>
    obtain ⟨j, -, rfl⟩ := heffect
    exact hsame ⟨rfl, rfl⟩
  | _ => exact hsame ⟨heffect.creations, heffect.nextId⟩

/-- A pool that is being opened has the interpreters that were made for it in the queue, and nothing
on loan or in the making. -/
theorem Opening.inside {config : PoolConfig} {made : List Interpreter}
    (h : Opening config made p) : p.idle ⊆ made ∧ p.loans = [] ∧ p.creations = [] := by
  induction h with
  | empty h =>
    obtain ⟨memory, rfl⟩ := ofConfig_eq_ok h
    exact ⟨List.nil_subset _, rfl, rfl⟩
  | @more made p q p' i now w w' _ _ slot _ r ih =>
    obtain ⟨hidle, hloans, hcreations⟩ := ih
    have hq := (reserve?_eq_some slot).2
    -- the creation has just begun, and it is taken over at once
    have hdrop : ((q.begin .replacement).dropCreation q.nextId).creations = [] := by
      rw [dropCreation, Pool.begin, hq, hcreations]
      simp
    have hbegun : (q.begin .replacement).idle ⊆ made ∧ (q.begin .replacement).loans = [] := by
      rw [hq]
      exact ⟨hidle, hloans⟩
    rcases (collected_collect _ _ _ now).of_run r with ⟨hbrings, -⟩ | ⟨hok, -, h⟩ | ⟨hwanted, -, -⟩
    · cases hbrings
    · obtain rfl := Except.ok.inj hok
      refine ⟨fun x hx => ?_, List.subset_nil.1 fun x hx => ?_, h.creations.trans hdrop⟩
      · rcases h.mem_idle hx with hx | hx
        · exact List.mem_cons_of_mem i (hbegun.1 hx)
        · exact List.mem_cons.2 (.inl (List.mem_singleton.1 hx))
      · exact hbegun.2 ▸ h.loans_of_nil ▸ hx
    · cases hwanted

end Pool
end ScriptPool
