import ScriptPool.Proofs.Pool.Accounts
import ScriptPool.Proofs.Pool.Load

/-!
# Which idle interpreter a request gets

A request that finds a free permit takes the next interpreter out of the queue.  Without load
balancing this is the first one.  With it, the first three are compared, fewer if there are not so
many, and the first of those with the fewest loans is taken.  An interpreter that is marked as
running a script is discarded then, and the request goes on with the queue that is left.

## What is here

* `IsNext` — the interpreter that is to be taken, with those before and behind it.
* `Takes` — what taking it leaves alone: the others in the queue, in their order, and their loads.
* `serve_eq` — what a request does first, with a free permit and something in the queue.
* `request_takes_next` — **a request takes the first of the least loaded among three**.
-/

set_option autoImplicit false

namespace ScriptPool
namespace Pool

open LoadTable

variable {p q : Pool} {front back : List Interpreter} {i : Interpreter}

/-! ## The next one

Which interpreter is next is said in terms of the loads alone, so that the way they are compared can
be forgotten. -/

/-- `i` is next in the queue, between `front` and `back`.  Without load balancing it is the first.
With load balancing it is one of the first three; none of the three has fewer loans, and those
before it have more.  An interpreter that has not been on loan has none. -/
structure IsNext (p : Pool) (front : List Interpreter) (i : Interpreter)
    (back : List Interpreter) : Prop where
  queue : p.idle = front ++ i :: back
  unbalanced : p.config.enableLoadBalancing = false → front = []
  sampled : p.config.enableLoadBalancing = true → front.length < 3
  least : p.config.enableLoadBalancing = true →
    ∀ j ∈ p.idle.take 3, p.loads.count i.id ≤ p.loads.count j.id
  leftmost : p.config.enableLoadBalancing = true →
    ∀ j ∈ front, p.loads.count i.id < p.loads.count j.id

theorem nextPlace_of_unbalanced (h : p.config.enableLoadBalancing = false) : p.nextPlace = 0 := by
  rw [nextPlace, h, Bool.false_and, if_neg Bool.false_ne_true]

/-- The place that is chosen by the loads.  A queue of one interpreter is not compared with the
table, and need not be. -/
theorem nextPlace_spec (hon : p.config.enableLoadBalancing = true) (h : p.idle ≠ []) :
    ∃ m, FirstLeast ((p.idle.take 3).map fun i => p.loads.count i.id) p.nextPlace m := by
  rw [nextPlace, hon, Bool.true_and]
  split
  · have hids : p.idle.map (·.id) ≠ [] := fun hnil => h (List.map_eq_nil_iff.1 hnil)
    obtain ⟨k, m, hk, hm⟩ := leastLoaded?_spec p.loads hids
    rw [← List.map_take, List.map_map] at hm
    rw [hk]
    exact ⟨m, hm⟩
  · rename_i hlen
    obtain ⟨i, hi⟩ : ∃ i, p.idle = [i] := by
      have hpos := List.length_pos_iff.2 h
      rw [decide_eq_true_iff] at hlen
      exact List.length_eq_one_iff.1 (by omega)
    rw [hi]
    exact ⟨_, FirstLeast.singleton (p.loads.count i.id)⟩

/-- **Something is next** as long as the queue is not empty, and it is at the place that is chosen.
-/
theorem exists_isNext (h : p.idle ≠ []) :
    ∃ front i back, IsNext p front i back ∧ p.nextPlace = front.length := by
  have hlt := nextPlace_lt h
  have hlen : (p.idle.take p.nextPlace).length = p.nextPlace :=
    List.length_take_of_le (Nat.le_of_lt hlt)
  refine ⟨p.idle.take p.nextPlace, p.idle[p.nextPlace], p.idle.drop (p.nextPlace + 1), ?_,
    hlen.symm⟩
  have hqueue : p.idle = p.idle.take p.nextPlace
      ++ p.idle[p.nextPlace] :: p.idle.drop (p.nextPlace + 1) := by
    rw [← List.drop_eq_getElem_cons hlt, List.take_append_drop]
  cases hb : p.config.enableLoadBalancing with
  | false =>
    have hzero := nextPlace_of_unbalanced hb
    have hno : ∀ {P : Prop}, p.config.enableLoadBalancing = true → P := fun ht =>
      absurd (hb.symm.trans ht) Bool.false_ne_true
    exact ⟨hqueue, fun _ => by rw [hzero, List.take_zero], fun ht => hno ht, fun ht => hno ht,
      fun ht => hno ht⟩
  | true =>
    obtain ⟨m, hm⟩ := nextPlace_spec hb h
    have hsample : p.nextPlace < 3 := by
      have hk := hm.lt_length
      rw [List.length_map, List.length_take] at hk
      omega
    have hcount : p.loads.count p.idle[p.nextPlace].id = m := by
      have hk := hm.at_place
      rw [List.getElem?_map, List.getElem?_take_of_lt hsample, List.getElem?_eq_getElem hlt] at hk
      exact Option.some.inj hk
    refine ⟨hqueue, fun hf => absurd (hb.symm.trans hf) Bool.false_ne_true.symm,
      fun _ => by rwa [hlen], fun _ j hj => ?_, fun _ j hj => ?_⟩
    · rw [hcount]
      exact hm.least _ (List.mem_map_of_mem hj)
    · rw [hcount]
      refine hm.first _ ?_
      rw [← List.map_take, List.take_take, Nat.min_eq_left (Nat.le_of_lt hsample)]
      exact List.mem_map_of_mem hj

/-! ## Taking it -/

/-- `i` was taken out of the queue, where it stood between `front` and `back`, against a permit.
The others are in the queue as they were, and their loads are as they were. -/
structure Takes (p : Pool) (front : List Interpreter) (i : Interpreter) (back : List Interpreter)
    (q : Pool) : Prop where
  idle : q.idle = front ++ back
  permits : q.permits + 1 = p.permits
  loads : ∀ id, id ≠ i.id → q.loads.get? id = p.loads.get? id
  config : q.config = p.config
  closed : q.closed = p.closed
  drained : q.drained = p.drained

/-- A pool whose next interpreter was taken from between others. -/
def taken (p : Pool) (front back : List Interpreter) : Pool :=
  { p with idle := front ++ back, available := lowered p.available 1 }

/-- A pool that has let go of an interpreter. -/
def without (p : Pool) (i : Interpreter) : Pool :=
  { p with
    loads := p.loads.remove i.id
    total := lowered p.total 1
    counters := { p.counters with destroyed := p.counters.destroyed + 1 } }

theorem IsNext.takeIdle? (h : IsNext p front i back) (hplace : p.nextPlace = front.length) :
    p.takeIdle? = some (i, p.taken front back) := by
  have hget : p.idle[front.length]? = some i := by
    rw [h.queue, List.getElem?_append_right (Nat.le_refl _), Nat.sub_self, List.getElem?_cons_zero]
  have herase : p.idle.eraseIdx front.length = front ++ back := by
    rw [h.queue, List.eraseIdx_append_of_length_le (Nat.le_refl _), Nat.sub_self,
      List.eraseIdx_cons_zero]
  rw [Pool.takeIdle?, hplace, hget, herase, taken]

/-- What is next is taken out of the queue, to be lent or to be discarded. -/
theorem IsNext.checkOut (h : IsNext p front i back) (hplace : p.nextPlace = front.length) :
    p.checkOut = if i.executing then do
        i.discard
        pure (none, (p.taken front back).without i)
      else pure (some i, p.taken front back) := by
  rw [Pool.checkOut, h.takeIdle? hplace]
  rfl

/-- What a request comes to when free permits have been tried. -/
def settle (key now : Nat) (waitedBefore : Bool) :
    Option Interpreter × Pool → Transition (Progress × Pool)
  | (some i, p) => pure (.lent i.id, p.lend i now)
  | (none, p) =>
      match p.reserve? with
      | some p => pure (.creating p.nextId, p.begin (.request key))
      | none =>
          let p := if waitedBefore then p else p.noteWait
          pure (.waiting, { p with waiters := p.waiters ++ [key] })

theorem serve_of_open (hopen : p.closed = false) (key now : Nat) (waitedBefore : Bool) :
    p.serve key now waitedBefore = checkOutAny p.permits p >>= settle key now waitedBefore := by
  rw [serve, hopen, if_neg Bool.false_ne_true]
  refine bind_congr fun r => ?_
  rcases r with ⟨_ | i, q⟩ <;> rfl

/-- The first permit is tried, and then the others. -/
theorem checkOutAny_succ (hdrained : p.drained = false) {n : Nat} (hn : p.permits = n + 1) :
    checkOutAny p.permits p = (do
      match ← Pool.checkOut { p with permits := n } with
      | (some i, q) => pure (some i, q)
      | (none, q) => checkOutAny n q) := by
  have htake : p.takePermit? = some { p with permits := n } := by
    rw [takePermit?, hdrained, if_neg Bool.false_ne_true, hn]
  rw [hn, checkOutAny]
  split
  · rename_i hnone
    cases htake.symm.trans hnone
  · rename_i q hq
    obtain rfl := Option.some.inj (htake.symm.trans hq)
    rfl

/-- **What a request does first**, with a free permit and something in the queue: it is lent the
next interpreter; or, if that is marked as running a script, discards it and goes on. -/
theorem serve_eq (hopen : p.closed = false) (hdrained : p.drained = false) (hpermit : 0 < p.permits)
    (h : IsNext p front i back) (hplace : p.nextPlace = front.length) (key now : Nat)
    (waitedBefore : Bool) :
    ∃ q, Takes p front i back q ∧
      if i.executing then
        q.loans = p.loans ∧ q.loads.get? i.id = none ∧ p.serve key now waitedBefore = (do
          i.discard
          q.serve key now waitedBefore)
      else
        q.loans = p.loans ++ [i.lent] ∧ q.loads.count i.id = p.loads.count i.id + 1
          ∧ p.serve key now waitedBefore = pure (.lent i.id, q) := by
  obtain ⟨n, hn⟩ : ∃ n, p.permits = n + 1 := Nat.exists_eq_add_one.2 hpermit
  let left : Pool := Pool.taken { p with permits := n } front back
  have hcheck := IsNext.checkOut (p := { p with permits := n }) { h with } hplace
  cases hexec : i.executing with
  | true =>
    rw [hexec, if_pos rfl] at hcheck
    have hclosed : (left.without i).closed = false := hopen
    refine ⟨left.without i, ⟨rfl, hn.symm, fun id hid => (get?_remove _ _ _).trans (if_neg hid),
      rfl, rfl, rfl⟩, ?_⟩
    rw [if_pos rfl]
    refine ⟨rfl, (get?_remove _ _ _).trans (if_pos rfl), ?_⟩
    rw [serve_of_open hopen, checkOutAny_succ hdrained hn, hcheck, serve_of_open hclosed]
    simp only [bind_assoc, pure_bind]
    rfl
  | false =>
    rw [hexec, if_neg Bool.false_ne_true] at hcheck
    refine ⟨left.lend i now, ⟨rfl, hn.symm, fun id hid => (get?_begin _ _ _ _).trans (if_neg hid),
      rfl, rfl, rfl⟩, ?_⟩
    rw [if_neg Bool.false_ne_true]
    refine ⟨rfl, ?_, ?_⟩
    · show (((p.loads.begin i.id now).get? i.id).map (·.count)).getD 0 = _
      rw [get?_begin, if_pos rfl, LoadTable.count]
      cases p.loads.get? i.id <;> rfl
    · rw [serve_of_open hopen, checkOutAny_succ hdrained hn, hcheck]
      rfl

/-- **A request takes the first of the least loaded.**  With a free permit, a request takes an
interpreter out of the queue.  Its place is inside the queue: without load balancing it is the first
one, and with it that of the first among three whose loans are the fewest.  All others stay in the
queue, in their order and with their loads.  The request is lent the interpreter, and the loan is
counted; only one that is marked as running a script is discarded and forgotten instead, and the
request goes on with the queue that is left. -/
theorem request_takes_next (hopen : p.closed = false) (hdrained : p.drained = false)
    (hpermit : 0 < p.permits) (hidle : p.idle ≠ []) (key now : Nat) :
    ∃ front i back q, IsNext p front i back ∧ p.nextPlace = front.length
      ∧ p.nextPlace < p.idle.length ∧ Takes p front i back q ∧
      if i.executing then
        q.loans = p.loans ∧ q.loads.get? i.id = none ∧ p.request key now = (do
          i.discard
          q.serve key now false)
      else
        q.loans = p.loans ++ [i.lent] ∧ q.loads.count i.id = p.loads.count i.id + 1
          ∧ p.request key now = pure (.lent i.id, q) := by
  obtain ⟨front, i, back, hnext, hplace⟩ := exists_isNext hidle
  obtain ⟨q, htakes, hserve⟩ := serve_eq (p := { p with
      counters := { p.counters with requests := p.counters.requests + 1 }
      recent := p.recent.record now }) hopen hdrained hpermit { hnext with } hplace key now false
  exact ⟨front, i, back, q, hnext, hplace, nextPlace_lt hidle, { htakes with }, hserve⟩

/-- A pool with four idle interpreters.  The first has been on loan twice, the next two once each,
and the last one never. -/
def crowd : Pool where
  config := { single with maxSize := 4, enableLoadBalancing := true }
  idle := [1, 2, 3, 4].map fun id => { firstMade with id }
  permits := 4
  recent := { window := .zero }
  memory := .disabled 0
  loads := [(1, { count := 2 }), (2, { count := 1 }), (3, { count := 1 })]

/-- The second interpreter is lent out: the third has not been on loan less often, and the last one
is not looked at. -/
theorem request_takes_next_second : ∃ q, crowd.request 7 3 = pure (.lent 2, q)
    ∧ q.idle.map (·.id) = [1, 3, 4] ∧ q.loads.count 2 = 2 := by
  obtain ⟨front, i, back, q, hnext, hplace, -, htakes, hserved⟩ :=
    request_takes_next (p := crowd) rfl rfl (by decide) (List.cons_ne_nil _ _) 7 3
  have hfront : front.length = 1 := hplace.symm
  match front, hfront with
  | [first], _ =>
    obtain ⟨rfl, htail⟩ := List.cons.inj hnext.queue
    obtain ⟨rfl, rfl⟩ := List.cons.inj htail
    refine ⟨q, hserved.2.2, ?_, hserved.2.1⟩
    rw [htakes.idle]
    rfl

end Pool
end ScriptPool
