import ScriptPool.Proofs.Pool.Population

/-!
# Requests that fail

A request that fails leaves nothing behind but counters.  While it lasts it holds something, one of
a place in line, a permit and a slot, and this the others can see: a slot that is reserved for it is
one that nobody else gets.  So there is no saying what the pool would be without the request, but
there is a pool *besides* the request, in which the slot is free, and everybody else stands in line
for the permits as if the request were not there.  A turn of the request that does not serve it
changes nothing in that pool, and at the end, when the request holds nothing, that pool is the pool.

There is one exception.  A request that is about to be lent an idle interpreter which is still
marked as running a script lets go of it and goes on without.

## What is here

* `besides` — the pool besides a request, and without what a request that fails may change.
* `Sheds` — what letting go of interpreters that are marked as running a script makes of a pool.
* `Turn` — the turns of a request that do not serve it: `Turn.sheds` says what they change.
* `Course` — a request and whatever else happens to the pool in the meantime.
* `failed_of_course` — **the pool besides a request is changed by the others alone.**
-/

set_option autoImplicit false

namespace ScriptPool
namespace Pool

open Transition

variable {born : List Interpreter} {p q r : Pool} {key : Nat}

/-! ## The pool besides a request

Everything that a request can hold is taken from it, and the permits are given out anew as if it had
never had one. -/

/-- The pool besides a request.  The request has no place in line and no slot, and a permit that was
granted to it is there for the others; so all permits are counted as free, and whoever was granted
one stands in front of the line.  Creations that nobody waits for are left out, and so is what a
request that fails may change: the counts of requests, waits and failures, the moments of requests,
and the next number. -/
def besides (p : Pool) (key : Nat) : Pool :=
  { p with
    total := p.total - p.creations.countP (Creation.isFor · key)
    permits := if p.drained then 0 else p.permits + p.granted.length
    waiters := (p.granted ++ p.waiters).erase key
    granted := []
    creations := p.creations.filter fun c => c.purpose.isSome && !Creation.isFor c key
    nextId := 0
    counters := { p.counters with requests := 0, waits := 0, creationFailures := 0 }
    recent := { p.recent with times := [] } }

/-- The pool without the idle interpreter at a place, its permit and its slot. -/
def shed (p : Pool) (place : Nat) (i : Interpreter) : Pool :=
  { p with
    idle := p.idle.eraseIdx place
    available := p.available - 1
    permits := p.permits - 1
    total := p.total - 1
    loads := p.loads.remove i.id
    counters := { p.counters with destroyed := p.counters.destroyed + 1 } }

/-- What becomes of a pool when idle interpreters are let go of that are still marked as running a
script. -/
inductive Sheds : Pool → Pool → Prop where
  | refl (p : Pool) : Sheds p p
  | step {p q : Pool} {place : Nat} {i : Interpreter} (found : p.idle[place]? = some i)
      (marked : i.executing = true) (h : Sheds (p.shed place i) q) : Sheds p q

theorem Sheds.trans (h : Sheds p q) (h' : Sheds q r) : Sheds p r := by
  induction h with
  | refl => exact h'
  | step found marked _ ih => exact .step found marked (ih h')

theorem Sheds.of_eq (h : p = q) : Sheds p q := h ▸ .refl p

/-- Where no interpreter is marked, nothing is let go of. -/
theorem Sheds.eq_of_unmarked (h : Sheds p q) (hp : ∀ i ∈ p.idle, i.executing = false) : q = p := by
  cases h with
  | refl => rfl
  | step found marked _ =>
    have hmarked := hp _ (List.mem_of_getElem? found)
    rw [marked] at hmarked
    cases hmarked

/-! ## Taking interpreters out of the queue -/

/-- An interpreter that is let go of takes its permit and its slot along. -/
theorem shed_takeIdle? {hand : List Interpreter} {i : Interpreter}
    (h : Balanced born p 0 1 hand) (ht : p.takeIdle? = some (i, q)) (he : i.executing = true)
    (key : Nat) :
    Ensures (q.discard i) fun r =>
      Sheds ({ p with permits := p.permits + 1 }.besides key) (r.besides key) := by
  have hd : p.drained = false := by
    cases hd : p.drained with
    | false => rfl
    | true =>
      rw [takeIdle?, (h.drained hd).2] at ht
      cases ht
  rw [takeIdle?] at ht
  split at ht
  · cases ht
  · rename_i j hj
    obtain ⟨rfl, rfl⟩ := Prod.mk.inj (Option.some.inj ht)
    have hlt : 0 < p.idle.length :=
      Nat.lt_of_le_of_lt (Nat.zero_le _) (List.getElem?_eq_some_iff.1 hj).1
    have havailable : lowered p.available 1 = p.available - 1 :=
      lowered_of_le (by rw [h.available]; exact hlt)
    have htotal : lowered p.total 1 = p.total - 1 :=
      lowered_of_le (by have := h.total; omega)
    refine (ensures_true _).bind fun _ _ => ensures_pure (.step hj he (.of_eq ?_))
    simp only [besides, shed, hd, havailable, htotal, Bool.false_eq_true, if_false]
    congr 1
    · omega
    · omega

/-- A permit that gets no interpreter is used up by one that is let go of. -/
theorem sheds_checkOut (h : Balanced born p 0 1 []) (key : Nat) :
    Ensures p.checkOut fun r =>
      r.1 = none → Sheds ({ p with permits := p.permits + 1 }.besides key) (r.2.besides key) := by
  rw [checkOut]
  split
  · rename_i hnone
    have hidle := takeIdle?_eq_none hnone
    have hdrained : p.drained = true := by
      cases hd : p.drained with
      | true => rfl
      | false =>
        have hpermits := h.permits hd
        rw [hidle, List.length_nil] at hpermits
        omega
    refine ensures_pure fun _ => .of_eq ?_
    simp only [besides, hdrained, if_true]
  · rename_i i q hq
    split
    · rename_i he
      exact (shed_takeIdle? h hq he key).bind fun r hr => ensures_pure fun _ => hr
    · exact ensures_pure fun hnone => absurd hnone (Option.some_ne_none i)

theorem sheds_checkOutAny (key n : Nat) : ∀ {p : Pool}, Balanced born p 0 0 [] →
    Ensures (checkOutAny n p) fun r => r.1 = none → Sheds (p.besides key) (r.2.besides key) := by
  induction n with
  | zero => exact fun _ => ensures_pure fun _ => .refl _
  | succ n ih =>
    intro p h
    rw [checkOutAny]
    split
    · exact ensures_pure fun _ => .refl _
    · rename_i q hq
      have hb := h.takePermit? hq
      obtain ⟨k, hk, rfl⟩ := takePermit?_eq_some hq
      have hpool : { p with permits := k + 1 } = p := by rw [← hk]
      refine (hb.checkOut.and (sheds_checkOut hb key)).bind fun r hr => ?_
      obtain ⟨hbal, hsheds⟩ := hr
      rcases r with ⟨_ | i, r⟩
      · refine (ih hbal).mono fun s hs hnone => ?_
        have hfirst : Sheds ({ p with permits := k + 1 }.besides key) (r.besides key) := hsheds rfl
        rw [hpool] at hfirst
        exact hfirst.trans (hs hnone)
      · exact ensures_pure fun hnone => absurd hnone (Option.some_ne_none i)

/-! ## Beginning and going on -/

theorem countP_isFor_eq_zero (h : key ∉ p.keys) :
    p.creations.countP (Creation.isFor · key) = 0 := by
  rw [← count_keys_creations]
  exact List.count_eq_zero.2 fun hmem => h (List.mem_append_right _ hmem)

theorem notMem_line (h : key ∉ p.keys) : key ∉ p.granted ++ p.waiters := by
  intro hmem
  rcases List.mem_append.1 hmem with hmem | hmem
  · exact h (List.mem_append_left _ (List.mem_append_right _ hmem))
  · exact h (List.mem_append_left _ (List.mem_append_left _ hmem))

/-- A slot that is reserved for a request is free besides the request. -/
theorem besides_begin (p : Pool) (key : Nat) :
    ({ p with total := p.total + 1 }.begin (.request key)).besides key = p.besides key := by
  have hfor : Creation.isFor { id := p.nextId, purpose := some (.request key) } key = true :=
    (Creation.isFor_iff _ _).2 rfl
  simp only [besides, begin, List.filter_append, List.countP_append, List.filter_cons,
    List.filter_nil, List.countP_cons, List.countP_nil, hfor, Bool.not_true, Bool.and_false,
    Bool.false_eq_true, if_false, if_true, List.append_nil]
  congr 1
  omega

/-- Besides a request, its place in line is not there. -/
theorem besides_wait (h : key ∉ p.keys) :
    { p with waiters := p.waiters ++ [key] }.besides key = p.besides key := by
  have hline := notMem_line h
  simp only [besides]
  congr 1
  rw [← List.append_assoc, List.erase_append_right _ hline, List.erase_cons_head, List.append_nil,
    List.erase_of_not_mem hline]

theorem sheds_serve (h : Balanced born p 0 0 []) (hk : key ∉ p.keys) (now : Nat)
    (waitedBefore : Bool) :
    Ensures (p.serve key now waitedBefore) fun r =>
      (∀ id, r.1 ≠ .lent id) → Sheds (p.besides key) (r.2.besides key) := by
  rw [serve]
  split
  · exact ensures_pure fun _ => .refl _
  · rename_i hopen
    have hd : p.drained = false := by
      cases hd : p.drained with
      | false => rfl
      | true => exact absurd (h.drained hd).1 hopen
    refine ((sheds_checkOutAny key p.permits h).and
      (keeps_checkOutAny p.permits p (Nat.le_refl _) hd)).bind fun r hr => ?_
    obtain ⟨hsheds, left, hkeeps, -⟩ := hr
    rcases r with ⟨_ | i, r⟩
    · have hkr : key ∉ r.keys := fun hm => hk (hkeeps.keys ▸ hm)
      dsimp only
      cases hres : r.reserve? with
      | some q =>
        refine ensures_pure fun _ => (hsheds rfl).trans (.of_eq ?_)
        rw [(reserve?_eq_some hres).2]
        exact (besides_begin r key).symm
      | none =>
        refine ensures_pure fun _ => (hsheds rfl).trans (.of_eq ?_)
        cases waitedBefore with
        | true => exact (besides_wait hkr).symm
        | false => exact (besides_wait hkr).symm
    · exact ensures_pure fun hlent => absurd rfl (hlent i.id)

theorem sheds_request (h : Balanced born p 0 0 []) (hk : key ∉ p.keys) (now : Nat) :
    Ensures (p.request key now) fun r =>
      (∀ id, r.1 ≠ .lent id) → Sheds (p.besides key) (r.2.besides key) := by
  have h' : Balanced born { p with
      counters := { p.counters with requests := p.counters.requests + 1 }
      recent := p.recent.record now } 0 0 [] := { h with }
  exact sheds_serve h' hk now false

/-- Besides a request, the permit that it was granted is there for the others. -/
theorem besides_ungrant (h : Balanced born p 0 0 []) (hk : key ∈ p.granted) :
    { p with granted := p.granted.erase key, permits := p.permits + 1 }.besides key
      = p.besides key := by
  have hline := notMem_line (h.not_mem_keys_ungrant hk)
  have hlength := List.length_erase_of_mem hk
  have hpos := List.length_pos_of_mem hk
  simp only [besides]
  congr 1
  · congr 1
    omega
  · rw [List.erase_of_not_mem hline, List.erase_append_left _ hk]

theorem sheds_resume (h : Balanced born p 0 0 []) (hk : key ∈ p.granted) (now : Nat) :
    Ensures (p.resume key now) fun r =>
      (∀ id, r.1 ≠ .lent id) → Sheds (p.besides key) (r.2.besides key) := by
  have hb := h.ungrant hk
  rw [resume]
  refine (hb.checkOut.and ((sheds_checkOut hb key).and (keeps_checkOut _))).bind fun r hr => ?_
  obtain ⟨hbal, hsheds, hkeeps⟩ := hr
  rcases r with ⟨_ | i, r⟩
  · have hkr : key ∉ r.keys := fun hm => h.not_mem_keys_ungrant hk (hkeeps.keys ▸ hm)
    refine (sheds_serve hbal hkr now true).mono fun s hs hlent => ?_
    have hfirst := hsheds rfl
    rw [besides_ungrant h hk] at hfirst
    exact hfirst.trans (hs hlent)
  · exact ensures_pure fun hlent => absurd rfl (hlent i.id)

/-! ## Giving up -/

theorem besides_turnAway (h : Balanced born p 0 0 []) (key : Nat) :
    (p.turnAway key).besides key = p.besides key := by
  simp only [besides, turnAway]
  congr 1
  by_cases hg : key ∈ p.granted
  · have hw : key ∉ p.waiters := by
      intro hw
      have hone := List.nodup_iff_count_le_one.1 h.keys key
      have hgranted := List.count_pos_iff.2 hg
      have hwaiters := List.count_pos_iff.2 hw
      rw [keys, List.count_append, List.count_append] at hone
      omega
    rw [List.erase_of_not_mem hw]
  · have hline : key ∉ p.waiters.erase key := by
      have hnodup : p.waiters.Nodup := (List.nodup_append.1 (List.nodup_append.1 h.keys).1).1
      exact fun hmem => (hnodup.mem_erase_iff.1 hmem).1 rfl
    rw [List.erase_append_right _ hg, List.erase_append_right _ hg, List.erase_of_not_mem hline]

/-- A permit that is passed on to the next in line, or is free again, is there for the others as
before. -/
theorem besides_addPermit (p : Pool) (key : Nat) :
    p.addPermit.besides key = { p with permits := p.permits + 1 }.besides key := by
  rw [addPermit]
  split
  · rename_i next rest hw
    simp only [besides, hw, List.append_assoc, List.singleton_append, List.length_append,
      List.length_singleton]
    congr 1
    congr 1
    omega
  · rfl

theorem filter_without (key : Nat) (l : List Creation) :
    ((l.map (Creation.without key)).filter fun c => c.purpose.isSome && !Creation.isFor c key)
      = l.filter fun c => c.purpose.isSome && !Creation.isFor c key := by
  induction l with
  | nil => rfl
  | cons c l ih =>
    rw [List.map_cons, List.filter_cons, List.filter_cons, ih, Creation.without]
    cases hc : Creation.isFor c key with
    | true => simp
    | false => simp [hc]

theorem countP_isFor_without (key : Nat) (l : List Creation) :
    (l.map (Creation.without key)).countP (Creation.isFor · key) = 0 := by
  rw [List.countP_map, List.countP_eq_zero]
  intro c _ hc
  rw [Function.comp_apply, Creation.without] at hc
  split at hc
  · simp [Creation.isFor] at hc
  · exact absurd hc ‹_›

theorem besides_giveUp (h : Balanced born p 0 0 []) (key : Nat) :
    (p.giveUp key).besides key = p.besides key := by
  rw [giveUp]
  split
  · rename_i hg
    rw [besides_addPermit]
    exact besides_ungrant h (List.contains_iff_mem.1 hg)
  · split
    · rename_i hc
      have hone : p.creations.countP (Creation.isFor · key) = 1 :=
        Nat.le_antisymm (h.countP_isFor_le key)
          (List.countP_pos_iff.2 (List.any_eq_true.1 hc))
      have hslot : 1 ≤ p.total := by
        have htotal := h.total
        have hreserved := countP_without key p.creations
        rw [reserved] at htotal
        omega
      have hcount := countP_isFor_without key p.creations
      have hfilter := filter_without key p.creations
      unfold Creation.without at hcount hfilter
      simp only [besides, release, lowered_of_le hslot, hone, hcount, hfilter, Nat.sub_zero]
    · exact besides_turnAway h key

/-! ## Creations -/

/-- A creation that is for the request, or that nobody waits for any more. -/
def Creation.IsLeftTo (c : Creation) (key : Nat) : Prop :=
  c.purpose = none ∨ Creation.isFor c key = true

theorem Creation.IsLeftTo.isOthers_eq_false {c : Creation} (h : Creation.IsLeftTo c key) :
    (c.purpose.isSome && !Creation.isFor c key) = false := by
  rcases h with h | h
  · rw [h, Option.isSome_none, Bool.false_and]
  · rw [h, Bool.not_true, Bool.and_false]

/-- How a creation turned out is of no concern to those who do not wait for it. -/
theorem besides_endCreation (h : Balanced born p 0 0 []) {c : Creation} (hc : c ∈ p.creations)
    (hleft : Creation.IsLeftTo c key) (outcome : Except InterpreterError Interpreter) :
    (p.endCreation c.id outcome).besides key = p.besides key := by
  have hcount : ((p.creations.map fun d =>
      if d.id == c.id then { d with outcome := some outcome } else d).countP
        (Creation.isFor · key)) = p.creations.countP (Creation.isFor · key) := by
    rw [List.countP_map]
    refine List.countP_congr fun d _ => ?_
    rw [Function.comp_apply]
    split <;> rfl
  have hfilter : ∀ l : List Creation, (∀ d ∈ l, d ∈ p.creations) →
      ((l.map fun d => if d.id == c.id then { d with outcome := some outcome } else d).filter
        fun d => d.purpose.isSome && !Creation.isFor d key)
      = l.filter fun d => d.purpose.isSome && !Creation.isFor d key := by
    intro l
    induction l with
    | nil => exact fun _ => rfl
    | cons d l ih =>
      intro hl
      have hrest := ih fun e he => hl e (List.mem_cons_of_mem d he)
      rw [List.map_cons]
      by_cases hid : (d.id == c.id) = true
      · obtain rfl : d = c := h.creation_unique (hl d List.mem_cons_self) hc (beq_iff_eq.1 hid)
        have hd := hleft.isOthers_eq_false
        rw [if_pos hid, List.filter_cons_of_neg, List.filter_cons_of_neg, hrest]
        · rw [hd]
          exact Bool.false_ne_true
        · show ¬ (d.purpose.isSome && !Creation.isFor d key) = true
          rw [hd]
          exact Bool.false_ne_true
      · rw [if_neg hid, List.filter_cons, List.filter_cons, hrest]
  simp only [besides, endCreation, hcount, hfilter p.creations fun _ hd => hd]
  rfl

/-- The creations of the others are as before when one that is not theirs is forgotten. -/
theorem filter_dropCreation (h : Balanced born p 0 0 []) {c : Creation} (hc : c ∈ p.creations)
    (hleft : Creation.IsLeftTo c key) :
    ((p.dropCreation c.id).creations.filter fun d => d.purpose.isSome && !Creation.isFor d key)
      = p.creations.filter fun d => d.purpose.isSome && !Creation.isFor d key := by
  rw [dropCreation, List.filter_filter]
  refine List.filter_congr fun d hd => ?_
  by_cases hid : d.id = c.id
  · obtain rfl : d = c := h.creation_unique hd hc hid
    rw [hleft.isOthers_eq_false, Bool.false_and]
  · rw [bne_iff_ne.2 hid, Bool.and_true]

theorem countP_dropCreation (h : Balanced born p 0 0 []) {c : Creation} (hc : c ∈ p.creations) :
    p.creations.countP (Creation.isFor · key)
      = (p.dropCreation c.id).creations.countP (Creation.isFor · key)
        + if Creation.isFor c key then 1 else 0 := by
  have hnodup : (p.creations.map (·.id)).Nodup :=
    (List.nodup_append.1 h.numbers.nodup).2.1.of_append_right
  rw [(perm_cons_filter hnodup hc).countP_eq, List.countP_cons]
  rfl

/-- A creation that fails gives back its slot, and one that nobody waits for has none. -/
theorem besides_collect (h : Balanced born p 0 0 []) {c : Creation} (hc : c ∈ p.creations)
    {outcome : Except InterpreterError Interpreter}
    (hleft : c.purpose = none ∨ (Creation.isFor c key = true ∧ ∃ e, outcome = .error e))
    (now : Nat) :
    Ensures (p.collect c outcome now) fun r => r.2.besides key = p.besides key := by
  have hfilter : Creation.IsLeftTo c key → _ := filter_dropCreation h hc
  have hcount : p.creations.countP (Creation.isFor · key) = _ := countP_dropCreation h hc
  rcases hleft with hnone | ⟨hfor, e, rfl⟩
  · have hdrop : (p.dropCreation c.id).besides key = p.besides key := by
      have hnot : Creation.isFor c key = false := by
        rw [Creation.isFor, hnone]
        rfl
      rw [hnot, if_neg Bool.false_ne_true, Nat.add_zero] at hcount
      have hsame := hfilter (.inl hnone)
      simp only [besides, ← hcount, hsame]
      rfl
    unfold collect
    rw [hnone]
    cases outcome with
    | error e => exact ensures_pure hdrop
    | ok i => exact (ensures_true _).bind fun _ _ => ensures_pure hdrop
  · have hpurpose := (Creation.isFor_iff c key).1 hfor
    have hslot : 1 ≤ p.total := by
      have htotal := h.total
      have hreserved := countP_without key p.creations
      rw [reserved] at htotal
      rw [hfor, if_pos rfl] at hcount
      omega
    rw [hfor, if_pos rfl] at hcount
    have hsame := hfilter (.inr hfor)
    have htotal : lowered p.total 1
        - (p.dropCreation c.id).creations.countP (Creation.isFor · key)
        = p.total - p.creations.countP (Creation.isFor · key) := by
      rw [lowered_of_le hslot]
      omega
    unfold collect
    rw [hpurpose]
    refine ensures_pure ?_
    show ((p.dropCreation c.id).noteFailure).besides key = p.besides key
    simp only [besides, noteFailure, release, hsame]
    congr 1

/-! ## A request and what happens in the meantime

A request that fails has its turns, and everything else happens between them.  The turns are looked
at one by one; about the moves of the others nothing need be known, since they are moves of a pool
in any case. -/

/-- A turn of a request that does not serve it: it begins or goes on without being lent anything, is
turned away or given up, or its creation ends and nothing comes of it.  What is left of a creation
that was given up counts as well. -/
inductive Turn (key : Nat) (p : Pool) : Pool → Prop where
  | request {q : Pool} {now : Nat} {w w' : World} {progress : Progress} (new : key ∉ p.keys)
      (r : (p.request key now).run w = ((progress, q), w')) (unserved : ∀ id, progress ≠ .lent id) :
      Turn key p q
  | resume {q : Pool} {now : Nat} {w w' : World} {progress : Progress} (granted : key ∈ p.granted)
      (r : (p.resume key now).run w = ((progress, q), w')) (unserved : ∀ id, progress ≠ .lent id) :
      Turn key p q
  | turnAway (closed : p.closed = true) (waits : key ∈ p.waiters) : Turn key p (p.turnAway key)
  | giveUp (waits : key ∈ p.keys) : Turn key p (p.giveUp key)
  | endCreation {c : Creation} {outcome : Except InterpreterError Interpreter}
      (mem : c ∈ p.creations) (goesOn : c.outcome.isNone) (left : Creation.IsLeftTo c key)
      (number : ∀ i, outcome = .ok i → i.id = c.id) : Turn key p (p.endCreation c.id outcome)
  | collect {q : Pool} {c : Creation} {outcome : Except InterpreterError Interpreter} {now : Nat}
      {w w' : World} {answer : Option (Nat × Progress)} (mem : c ∈ p.creations)
      (ended : c.outcome = some outcome)
      (left : c.purpose = none ∨ (Creation.isFor c key = true ∧ ∃ e, outcome = .error e))
      (r : (p.collect c outcome now).run w = ((answer, q), w')) : Turn key p q

/-- A turn is a move of the pool. -/
theorem Turn.step (t : Turn key p q) : ∃ m, Step p m q := by
  have hsnd : ∀ {α : Type} {x : Transition (α × Pool)} {a : α} {w w' : World},
      x.run w = ((a, q), w') → (do return (← x).2 : Transition Pool).run w = (q, w') := by
    intro α x a w w' r
    show (((x.run w).1.2, (x.run w).2) : Pool × World) = _
    rw [r]
  cases t with
  | @request _ now w w' _ new r _ => exact ⟨.request key now, new, w, w', hsnd r⟩
  | @resume _ now w w' _ granted r _ => exact ⟨.resume key now, granted, w, w', hsnd r⟩
  | turnAway closed waits => exact ⟨.turnAway key, ⟨closed, waits⟩, default, default, rfl⟩
  | giveUp waits => exact ⟨.giveUp key, waits, default, default, rfl⟩
  | @endCreation c outcome mem goesOn _ number =>
    exact ⟨.endCreation c.id outcome, ⟨⟨c, mem, rfl, goesOn⟩, number⟩, default, default, rfl⟩
  | @collect _ c outcome now w w' _ mem ended _ r =>
    exact ⟨.collect c outcome now, ⟨mem, ended⟩, w, w', hsnd r⟩

/-- **A turn that does not serve a request changes nothing besides the request**, but for
interpreters that are let go of because they are marked as running a script. -/
theorem Turn.sheds (h : Balanced born p 0 0 []) (t : Turn key p q) :
    Sheds (p.besides key) (q.besides key) := by
  cases t with
  | request new r unserved => exact (sheds_request h new _).of_run r unserved
  | resume granted r unserved => exact (sheds_resume h granted _).of_run r unserved
  | turnAway closed waits => exact .of_eq (besides_turnAway h key).symm
  | giveUp waits => exact .of_eq (besides_giveUp h key).symm
  | endCreation mem goesOn left number => exact .of_eq (besides_endCreation h mem left _).symm
  | collect mem ended left r => exact .of_eq ((besides_collect h mem left _).of_run r).symm

/-- A request that has not been served so far, and whatever else has happened to the pool since it
began: the pool before the request, each move of the others as the pool before and after it, and the
pool now. -/
inductive Course (config : PoolConfig) (key : Nat) : Pool → List (Pool × Pool) → Pool → Prop where
  | start {opened : List Interpreter} {ms : List Move} {p : Pool} (h : Run config opened ms p)
      (new : key ∉ p.keys) : Course config key p [] p
  | turn {p q q' : Pool} {others : List (Pool × Pool)} (h : Course config key p others q)
      (t : Turn key q q') : Course config key p others q'
  | other {p q q' : Pool} {others : List (Pool × Pool)} {m : Move}
      (h : Course config key p others q) (s : Step q m q') :
      Course config key p (others ++ [(q, q')]) q'

/-- Between the moves of the others nothing happens, but for interpreters that are let go of: each
move finds what the one before it has left. -/
def Linked (key : Nat) (p : Pool) : List (Pool × Pool) → Pool → Prop
  | [], q => Sheds p q
  | (before, after) :: rest, q =>
      Sheds p (before.besides key) ∧ Linked key (after.besides key) rest q

theorem Linked.trans {others : List (Pool × Pool)} :
    ∀ {p : Pool}, Linked key p others q → Sheds q r → Linked key p others r := by
  induction others with
  | nil => exact fun h h' => Sheds.trans h h'
  | cons other others ih => exact fun h h' => ⟨h.1, ih h.2 h'⟩

theorem Linked.concat {others : List (Pool × Pool)} {q q' : Pool} :
    ∀ {p : Pool}, Linked key p others (q.besides key) →
      Linked key p (others ++ [(q, q')]) (q'.besides key) := by
  induction others with
  | nil => exact fun h => ⟨h, .refl _⟩
  | cons other others ih => exact fun h => ⟨h.1, ih h.2⟩

theorem Course.run {config : PoolConfig} {others : List (Pool × Pool)}
    (h : Course config key p others q) : ∃ opened ms, Run config opened ms q := by
  induction h with
  | start h _ => exact ⟨_, _, h⟩
  | turn _ t ih =>
    obtain ⟨opened, ms, hrun⟩ := ih
    obtain ⟨m, s⟩ := t.step
    exact ⟨opened, m :: ms, hrun.step s⟩
  | other _ s ih =>
    obtain ⟨opened, ms, hrun⟩ := ih
    exact ⟨opened, _, hrun.step s⟩

theorem Course.linked {config : PoolConfig} {others : List (Pool × Pool)}
    (h : Course config key p others q) : Linked key (p.besides key) others (q.besides key) := by
  induction h with
  | start _ _ => exact Sheds.refl _
  | turn h t ih =>
    obtain ⟨opened, ms, hrun⟩ := h.run
    exact ih.trans (t.sheds hrun.balanced)
  | other _ _ ih => exact ih.concat

/-! ## The pool after a request that failed

A request that has come to its end holds nothing, so the pool besides it is the pool itself. -/

/-- A request that holds nothing occupies no slot. -/
theorem total_besides (h : key ∉ p.keys) : (p.besides key).total = p.total := by
  simp only [besides, countP_isFor_eq_zero h, Nat.sub_zero]

/-- A request that holds nothing is not in line. -/
theorem waiters_besides (h : key ∉ p.keys) :
    (p.besides key).waiters = p.granted ++ p.waiters := List.erase_of_not_mem (notMem_line h)

/-- The queue, the permits, the slots, the loans and the loads are as before. -/
structure AsBefore (p q : Pool) : Prop where
  idle : q.idle = p.idle
  available : q.available = p.available
  drained : q.drained = p.drained
  permits : p.drained = false → q.permits = p.permits
  total : q.total = p.total
  inUse : q.inUse = p.inUse
  loans : q.loans = p.loans
  borrowed : q.borrowed = p.borrowed
  loads : q.loads = p.loads

/-- Where a request holds nothing, the pool besides it says how many permits are free: nobody stands
in line while there is one. -/
theorem asBefore_of_besides {born' : List Interpreter} (hp : Balanced born p 0 0 [])
    (hq : Balanced born' q 0 0 []) (hkp : key ∉ p.keys) (hkq : key ∉ q.keys)
    (h : q.besides key = p.besides key) : AsBefore p q := by
  have hfield : ∀ {α : Type} (f : Pool → α), f (q.besides key) = f (p.besides key) :=
    fun f => congrArg f h
  have hdrained : q.drained = p.drained := hfield Pool.drained
  refine ⟨hfield Pool.idle, hfield Pool.available, hdrained, fun hd => ?_, ?_,
    hfield Pool.inUse, hfield Pool.loans, hfield Pool.borrowed, hfield Pool.loads⟩
  · have hpermits : (q.besides key).permits = (p.besides key).permits := hfield Pool.permits
    have hline : (q.besides key).waiters.length = (p.besides key).waiters.length :=
      hfield fun p => p.waiters.length
    rw [waiters_besides hkq, waiters_besides hkp, List.length_append, List.length_append] at hline
    simp only [besides, hdrained, hd, Bool.false_eq_true, if_false] at hpermits
    have hp0 : p.waiters.length ≠ 0 → p.permits = 0 := fun hne =>
      hp.line fun hnil => hne (List.length_eq_zero_iff.2 hnil)
    have hq0 : q.waiters.length ≠ 0 → q.permits = 0 := fun hne =>
      hq.line fun hnil => hne (List.length_eq_zero_iff.2 hnil)
    omega
  · rw [← total_besides hkq, ← total_besides hkp]
    exact hfield Pool.total

theorem Course.new {config : PoolConfig} {others : List (Pool × Pool)}
    (h : Course config key p others q) :
    (∃ opened ms, Run config opened ms p) ∧ key ∉ p.keys := by
  induction h with
  | start h new => exact ⟨⟨_, _, h⟩, new⟩
  | turn _ _ ih => exact ih
  | other _ _ ih => exact ih

/-- **The pool besides a request that is not served is changed by the others alone**: at any time,
what has become of it is what the moves of the others have made of it, one after the other, except
that idle interpreters may have been let go of that were marked as running a script.  The request
never holds more than one thing.  So when it ends and nobody else has moved in between, the pool is
as it was. -/
theorem failed_of_course {config : PoolConfig} {others : List (Pool × Pool)}
    (h : Course config key p others q) :
    Linked key (p.besides key) others (q.besides key) ∧ q.keys.count key ≤ 1
      ∧ (key ∉ q.keys → others = [] → (∀ i ∈ p.idle, i.executing = false) → AsBefore p q) := by
  obtain ⟨⟨opened, ms, hp⟩, hkp⟩ := h.new
  obtain ⟨opened', ms', hq⟩ := h.run
  refine ⟨h.linked, List.nodup_iff_count_le_one.1 hq.balanced.keys key, ?_⟩
  rintro hkq rfl hmarked
  have hsheds : Sheds (p.besides key) (q.besides key) := h.linked
  exact asBefore_of_besides hp.balanced hq.balanced hkp hkq (hsheds.eq_of_unmarked hmarked)

/-- A request has the only interpreter made for it, which leaves no slot to grow into, and is given
up. -/
theorem failed_of_course_refused : ∃ p a b q, Course single 1 p [(a, b)] q
    ∧ 1 ∉ q.keys ∧ a.total = 1 ∧ b.total = 1 ∧ q.total = 0
    ∧ Linked 1 (p.besides 1) [(a, b)] (q.besides 1) := by
  have h₀ : Run single [] [] _ := .start ⟨.empty rfl, Nat.zero_le _⟩
  have c₀ : Course single 1 _ [] _ := .start h₀ List.not_mem_nil
  have c₁ := c₀.turn (@Turn.request 1 _ _ 0 default _ _ List.not_mem_nil rfl
    fun _ hlent => by cases hlent)
  have c₂ := c₁.other (m := .grow 1) ⟨trivial, default, _, rfl⟩
  have c₃ := c₂.turn (.giveUp List.mem_cons_self)
  exact ⟨_, _, _, _, c₃, List.not_mem_nil, rfl, rfl, rfl, (failed_of_course c₃).1⟩

/-- What a request holds can be seen: while it waits for the only interpreter to be made, the pool
does not grow, as it would have without the request.  And a request that finds an interpreter marked
as running a script lets go of it, although it fails in the end. -/
theorem failed_request_seen :
    (∃ p q, Run single [] [.giveUp 1, .grow 1, .request 1 0] p ∧ 1 ∉ p.keys
      ∧ Run single [] [.grow 1] q ∧ p.total = 0 ∧ q.total = 1)
    ∧ ∃ p q ms, Run single [] ms p ∧ Run single [] (.giveUp 8 :: .request 8 0 :: ms) q
      ∧ 8 ∉ q.keys ∧ p.idle.map (·.id) = [1] ∧ p.total = 1 ∧ q.idle = [] ∧ q.total = 0 := by
  have h₀ : Run single [] [] _ := .start ⟨.empty rfl, Nat.zero_le _⟩
  constructor
  · have h₁ := h₀.step (m := .request 1 0) ⟨List.not_mem_nil, default, _, rfl⟩
    have h₂ := h₁.step (m := .grow 1) ⟨trivial, default, _, rfl⟩
    have h₃ := h₂.step (m := .giveUp 1) ⟨List.mem_cons_self, default, _, rfl⟩
    have h₁' := h₀.step (m := .grow 1) ⟨trivial, default, _, rfl⟩
    exact ⟨_, _, h₃, List.not_mem_nil, h₁', rfl, rfl⟩
  · have huse : IsUse fun i => pure ((), { i with executing := true }) := fun i =>
      ensures_pure ⟨true, i.tainted, i.wasReset, rfl⟩
    have h₁ := h₀.step (m := .request 7 0) ⟨List.not_mem_nil, default, _, rfl⟩
    have h₂ := h₁.step (m := .endCreation 1 (.ok firstMade))
      ⟨⟨⟨_, List.mem_cons_self, rfl, rfl⟩, fun i hi => by cases hi; rfl⟩, default, _, rfl⟩
    have h₃ := h₂.step (m := .collect
      { id := 1, purpose := some (.request 7), outcome := some (.ok firstMade) } (.ok firstMade) 0)
      ⟨⟨List.mem_cons_self, rfl⟩, default, _, rfl⟩
    have h₄ := h₃.step (m := .onLoan 1 _) ⟨⟨List.mem_cons_self, huse⟩, default, _, rfl⟩
    have h₅ := h₄.step (m := .giveBack 1 0) ⟨List.mem_cons_self, default, _, rfl⟩
    have h₆ := h₅.step (m := .request 8 0) ⟨List.not_mem_nil, default, _, rfl⟩
    have h₇ := h₆.step (m := .giveUp 8) ⟨List.mem_cons_self, default, _, rfl⟩
    exact ⟨_, _, _, h₅, h₇, List.not_mem_nil, rfl, rfl, rfl, rfl⟩

end Pool
end ScriptPool
