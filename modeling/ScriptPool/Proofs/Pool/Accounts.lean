import ScriptPool.Proofs.Pool.Effects

/-!
# The books agree in every run

Every move of a pool keeps its books balanced, and so they are balanced in every state of every run.

## What is here

* One lemma for each of the operations that the moves consist of, `Balanced.serve` for requests and
  `Balanced.takeBack` for returns being the longest.
* `Step.balanced` — **one move keeps the books balanced**, and `Run.balanced`, which follows by
  induction.
* `Accounts` — the books in the form in which they are read: every gauge next to what it counts.
-/

set_option autoImplicit false

namespace ScriptPool
namespace Pool

open Transition

variable {born : List Interpreter} {p q : Pool} {slots taken : Nat} {hand : List Interpreter}
  {i : Interpreter}

namespace Balanced

/-! ## Requests

A request goes on in several steps, and between them it has something in hand: a permit that has no
interpreter yet, or a slot that has none.  What the books say with that in hand is what the next
step relies on. -/

theorem checkOut (h : Balanced born p slots (taken + 1) hand) :
    Ensures p.checkOut fun r => match r.1 with
      | some i => Balanced born r.2 (slots + 1) taken (i :: hand)
      | none => Balanced born r.2 slots taken hand := by
  rw [Pool.checkOut]
  split
  · rename_i hnone
    exact ensures_pure (h.of_idle_eq_nil (takeIdle?_eq_none hnone)).1
  · rename_i i q hq
    have ht := h.takeIdle? hq
    split
    · exact ht.discard.bind fun r hr => ensures_pure hr
    · exact ensures_pure ht

theorem checkOutAny (n : Nat) : ∀ {p : Pool}, Balanced born p slots taken hand →
    Ensures (Pool.checkOutAny n p) fun r => match r.1 with
      | some i => Balanced born r.2 (slots + 1) taken (i :: hand)
      | none => Balanced born r.2 slots taken hand := by
  induction n with
  | zero => exact fun h => ensures_pure h
  | succ n ih =>
    intro p h
    rw [Pool.checkOutAny]
    split
    · exact ensures_pure h
    · rename_i q hq
      refine (h.takePermit? hq).checkOut.bind fun r hr => ?_
      rcases r with ⟨_ | i, r⟩
      · exact ih hr
      · exact ensures_pure hr

/-- A request gets in line where no permit is free. -/
theorem wait (h : Balanced born p slots taken hand) {key : Nat} (hk : key ∉ p.keys)
    (hp : p.permits = 0) :
    Balanced born { p with waiters := p.waiters ++ [key] } slots taken hand := by
  refine { h with line := fun _ => hp, keys := ?_ }
  refine nodup_of_count (List.nodup_cons.2 ⟨hk, h.keys⟩) fun n => ?_
  simp only [Pool.keys, List.count_append, List.count_cons, List.count_nil]
  omega

/-- A request that is served, or waits in line or for a creation. -/
theorem serve (h : Balanced born p 0 0 []) {key : Nat} (hk : key ∉ p.keys) (now : Nat)
    (waitedBefore : Bool) :
    Ensures (p.serve key now waitedBefore) fun r => Balanced born r.2 0 0 [] := by
  rw [Pool.serve]
  split
  · exact ensures_pure h
  · rename_i hopen
    have hd : p.drained = false := by
      cases hd : p.drained with
      | false => rfl
      | true => exact absurd (h.drained hd).1 hopen
    refine ((h.checkOutAny p.permits).and
      (keeps_checkOutAny p.permits p (Nat.le_refl _) hd)).bind fun r hr => ?_
    obtain ⟨hb, left, hkeeps, hleft⟩ := hr
    rcases r with ⟨_ | i, r⟩
    · have hkr : key ∉ r.keys := fun hm => hk (hkeeps.keys ▸ hm)
      have hp : r.permits = 0 := hkeeps.permits.trans (hleft rfl)
      dsimp only
      cases hres : r.reserve? with
      | some q =>
        refine ensures_pure ((hb.reserve? hres).begin fun key' he => ?_)
        obtain rfl : key = key' := Purpose.request.inj he
        rw [(reserve?_eq_some hres).2]
        exact hkr
      | none =>
        refine ensures_pure ?_
        cases waitedBefore with
        | true => exact hb.wait hkr hp
        | false => exact (hb.counters _).wait hkr hp
    · exact ensures_pure (hb.lend now)

theorem request (h : Balanced born p 0 0 []) {key : Nat} (hk : key ∉ p.keys) (now : Nat) :
    Ensures (p.request key now) fun r => Balanced born r.2 0 0 [] := by
  have h' : Balanced born { p with
      counters := { p.counters with requests := p.counters.requests + 1 }
      recent := p.recent.record now } 0 0 [] := { h with }
  exact h'.serve hk now false

/-- A permit that was granted is used, or passed on. -/
theorem ungrant (h : Balanced born p slots taken hand) {key : Nat} (hk : key ∈ p.granted) :
    Balanced born { p with granted := p.granted.erase key } slots (taken + 1) hand := by
  have hlen := List.length_erase_of_mem hk
  have hpos := List.length_pos_of_mem hk
  refine { h with permits := fun hd => ?_, keys := ?_ }
  · have hp := h.permits hd
    show p.permits + (p.granted.erase key).length + (taken + 1) = p.idle.length
    omega
  · refine nodup_of_count h.keys fun n => ?_
    have hle := (List.erase_sublist (a := key) (l := p.granted)).count_le n
    simp only [Pool.keys, List.count_append]
    omega

theorem not_mem_keys_ungrant (h : Balanced born p slots taken hand) {key : Nat}
    (hk : key ∈ p.granted) : key ∉ { p with granted := p.granted.erase key }.keys := by
  have hone := List.nodup_iff_count_le_one.1 h.keys key
  have hpos := List.count_pos_iff.2 hk
  have herase := List.count_erase_self (a := key) (l := p.granted)
  refine fun hm => absurd (List.count_pos_iff.2 hm) (Nat.not_lt.2 (Nat.le_of_eq ?_))
  simp only [Pool.keys, List.count_append] at hone ⊢
  omega

theorem resume (h : Balanced born p 0 0 []) {key : Nat} (hk : key ∈ p.granted) (now : Nat) :
    Ensures (p.resume key now) fun r => Balanced born r.2 0 0 [] := by
  rw [Pool.resume]
  refine ((h.ungrant hk).checkOut.and (keeps_checkOut _)).bind fun r hr => ?_
  obtain ⟨hb, hkeeps⟩ := hr
  rcases r with ⟨_ | i, r⟩
  · exact hb.serve (fun hm => h.not_mem_keys_ungrant hk (hkeeps.keys ▸ hm)) now true
  · exact ensures_pure (hb.lend now)

theorem turnAway (h : Balanced born p slots taken hand) (key : Nat) :
    Balanced born (p.turnAway key) slots taken hand := by
  refine { h with line := fun hne => h.line fun he => hne ?_, keys := ?_ }
  · show p.waiters.erase key = []
    rw [he, List.erase_nil]
  · refine nodup_of_count h.keys fun n => ?_
    have hle := (List.erase_sublist (a := key) (l := p.waiters)).count_le n
    simp only [Pool.turnAway, Pool.keys, List.count_append]
    omega

/-- A request is given up, wherever it waits. -/
theorem giveUp (h : Balanced born p slots taken hand) (key : Nat) :
    Balanced born (p.giveUp key) slots taken hand := by
  rw [Pool.giveUp]
  split
  · rename_i hg
    exact (h.ungrant (List.contains_iff_mem.1 hg)).addPermit
  · split
    · rename_i hc
      exact h.abandon hc
    · exact h.turnAway key

/-! ## Creations -/

/-- A creation that was planned begins. -/
theorem beginPlanned (h : Balanced born p slots taken hand) {purpose : Purpose}
    (hp : purpose ∈ p.planned) :
    Balanced born ({ p with planned := p.planned.erase purpose }.begin purpose) slots taken hand :=
  (h.unplan hp).begin fun key he => absurd he (h.background purpose hp key)

/-- What came of a creation is taken over. -/
theorem collect (h : Balanced born p slots taken hand) {c : Creation} (hc : c ∈ p.creations)
    {outcome : Except InterpreterError Interpreter} (ho : c.outcome = some outcome) (now : Nat) :
    Ensures (p.collect c outcome now) fun r => Balanced born r.2 slots taken hand := by
  have hdrop := h.dropCreation hc
  unfold Pool.collect
  cases hw : c.purpose with
  | none =>
    rw [hw, Option.isSome_none, if_neg Bool.false_ne_true] at hdrop
    cases outcome with
    | error e => exact ensures_pure hdrop
    | ok i => exact (ensures_true _).bind fun _ _ => ensures_pure hdrop
  | some purpose =>
    rw [hw, Option.isSome_some, if_pos rfl] at hdrop
    cases outcome with
    | error e =>
      cases purpose with
      | request key => exact ensures_pure hdrop.noteFailure
      | replacement => exact ensures_pure hdrop.noteFailure
      | growth => exact ensures_pure hdrop.noteFailure
    | ok i =>
      have htake := h.takeMade hc ho (by rw [hw]; rfl)
      cases purpose with
      | request key => exact ensures_pure ((htake.counters _).lend now)
      | replacement => exact (htake.counters _).addIdle.bind fun q hq => ensures_pure hq
      | growth => exact (htake.counters _).addIdle.bind fun q hq => ensures_pure hq

/-! ## Returns -/

theorem replace (h : Balanced born p slots taken hand) :
    Balanced born p.replace slots taken hand := by
  rw [Pool.replace]
  cases hp : p.plan? .replacement with
  | none => exact h
  | some q => exact h.plan? (fun _ he => Purpose.noConfusion he) hp

theorem recycle (h : Balanced born p (slots + 1) taken (i :: hand)) :
    Ensures (p.recycle i) fun q => Balanced born q slots taken hand :=
  (h.counters _).discard.bind fun _ hq => ensures_pure hq.replace

/-- An interpreter in hand may change, as long as it stays the same interpreter. -/
theorem changeHand (h : Balanced born p slots taken (i :: hand)) {j : Interpreter}
    (hid : j.id = i.id) (hstate : j.state = i.state) : Balanced born p slots taken (j :: hand) := by
  refine { h with numbers := ?_, stems := ?_ }
  · rw [List.map_cons, hid]
    exact h.numbers
  · intro x hx
    rcases List.mem_cons.1 hx with rfl | hx
    · obtain ⟨b, hb, hbid, hbstate⟩ := h.stems i List.mem_cons_self
      exact ⟨b, hb, hbid.trans hid.symm, hbstate.trans hstate.symm⟩
    · exact h.stems x (List.mem_cons_of_mem i hx)

/-- An interpreter on loan is taken back. -/
theorem takeBack (h : Balanced born p slots taken hand) {id : Nat} (hl : p.loan? id = some i)
    (now : Nat) : Ensures (p.takeBack i now) fun q => Balanced born q slots taken hand := by
  have hid : i.id = id := by simpa using List.find?_some hl
  have hback := h.endLoan hl now
  rw [← hid] at hback
  rw [Pool.takeBack]
  show Ensures (if (p.endLoan i.id now).closed then _ else _) _
  split
  · exact hback.discard
  · split
    · exact hback.recycle
    · refine i.ensures_reset.bind fun r hr => ?_
      cases hr with
      | failed e => exact hback.recycle
      | succeeded untainted =>
        exact (hback.changeHand rfl rfl : Balanced born _ _ _
          (({ i with wasReset := true } : Interpreter).handedBack now :: hand)).addIdle

theorem giveBack (h : Balanced born p slots taken hand) (id now : Nat) :
    Ensures (p.giveBack id now) fun q => Balanced born q slots taken hand := by
  rw [Pool.giveBack]
  cases hl : p.loan? id with
  | none => exact ensures_pure h
  | some i => exact h.takeBack hl now

/-! ## Sizes -/

theorem refill (n : Nat) : ∀ {p : Pool}, Balanced born p slots taken hand →
    Balanced born (Pool.refill n p) slots taken hand := by
  induction n with
  | zero => exact fun h => h
  | succ n ih =>
    intro p h
    rw [Pool.refill]
    cases hp : p.plan? .replacement with
    | none => exact h
    | some q => exact ih (h.plan? (fun _ he => Purpose.noConfusion he) hp)

theorem grow (n : Nat) : ∀ {p : Pool}, Balanced born p slots taken hand →
    Balanced born (p.grow n).2 slots taken hand := by
  induction n with
  | zero => exact fun h => h
  | succ n ih =>
    intro p h
    rw [Pool.grow]
    cases hp : p.plan? .growth with
    | none => exact h
    | some q => exact ih (h.plan? (fun _ he => Purpose.noConfusion he) hp)

theorem shrink (n : Nat) : ∀ {p : Pool}, Balanced born p slots taken hand →
    Ensures (p.shrink n) fun r => Balanced born r.2 slots taken hand := by
  induction n with
  | zero => exact fun h => ensures_pure h
  | succ n ih =>
    intro p h
    rw [Pool.shrink]
    split
    · exact ensures_pure h
    · split
      · exact ensures_pure h
      · rename_i q hq
        have ht := h.takePermit? hq
        split
        · rename_i hlast
          exact ensures_pure (ht.of_idle_eq_nil (List.getLast?_eq_none_iff.1 hlast)).1
        · rename_i i hlast
          have hidle : q.idle = q.idle.dropLast ++ [i] :=
            (List.dropLast_append_getLast? i hlast).symm
          have hlen := congrArg List.length hidle
          rw [List.length_append, List.length_singleton] at hlen
          have hperm : ([i] ++ q.idle.dropLast).Perm q.idle := by
            conv => rhs; rw [hidle]
            exact (List.perm_append_singleton i _).symm
          have hout : Balanced born { q with
              idle := q.idle.dropLast, available := lowered q.available 1 } (slots + 1) taken
              (i :: hand) := by
            refine ht.unqueue hperm (Nat.le_refl _) (fun hd => ?_) fun hd => ?_
            · have hp := ht.permits hd
              omega
            · rw [(ht.drained hd).2] at hlast
              cases hlast
          exact (hout.counters _).discard.bind fun r hr =>
            (ih hr).bind fun s hs => ensures_pure hs

theorem sweep (h : Balanced born p slots taken hand) (now : Nat) :
    Ensures (p.sweep now) fun r => Balanced born r.2 slots taken hand := by
  have hcut := splitStale_cut (isStale p.config now) (if p.drained then 0 else p.permits) p.idle
  obtain ⟨out, kept, hs⟩ : ∃ out kept, splitStale (isStale p.config now)
    (if p.drained then 0 else p.permits) p.idle = (out, kept) := ⟨_, _, rfl⟩
  rw [hs] at hcut
  obtain ⟨hperm, hle⟩ := hcut
  dsimp only at hperm hle
  have hlen := hperm.length_eq
  rw [List.length_append] at hlen
  have hout : Balanced born { p with
      idle := kept, permits := p.permits - out.length,
      available := lowered p.available out.length }
      (slots + out.length) taken (out ++ hand) := by
    refine h.unqueue hperm (Nat.sub_le _ _) (fun hd => ?_) fun hd => ⟨(h.drained hd).1, ?_⟩
    · have hp := h.permits hd
      rw [hd] at hle
      simp only [Bool.false_eq_true, if_false] at hle
      omega
    · rw [(h.drained hd).2] at hperm
      exact (List.append_eq_nil_iff.1 hperm.eq_nil).2
  rw [Pool.sweep]
  dsimp only
  rw [hs]
  refine ((hout.counters _).discardAll out).bind fun q hq => ensures_pure ?_
  exact hq.refill _

theorem drain (h : Balanced born p slots taken hand) (hc : p.closed = true) :
    Ensures p.drain fun q => Balanced born q slots taken hand := by
  have hall : (p.idle ++ []).Perm p.idle := by rw [List.append_nil]
  have hout : Balanced born
      { p with drained := true, idle := [], available := lowered p.available p.idle.length }
      (slots + p.idle.length) taken (p.idle ++ hand) :=
    h.unqueue hall (Nat.le_refl _) (fun hf => absurd hf.symm Bool.false_ne_true)
      fun _ => ⟨hc, rfl⟩
  rw [h.available, lowered_of_le (Nat.le_refl _), Nat.sub_self] at hout
  exact (hout.discardAll p.idle).bind fun q hq => ensures_pure { hq with }

end Balanced

/-! ## One move

A move has nothing in hand at its beginning and at its end. -/

/-- **One move keeps the books balanced.** -/
theorem Step.balanced {m : Move} (h : Balanced born p 0 0 []) (s : Step p m q) :
    Balanced (m.made?.toList ++ born) q 0 0 [] := by
  obtain ⟨hm, w, w', hrun⟩ := s
  have hkeep : ∀ {t : Transition Pool}, m.apply p = t →
      Ensures t (fun r => Balanced born r 0 0 []) → Balanced born q 0 0 [] := by
    rintro t rfl ht
    exact ht.of_run hrun
  cases m with
  | request key now =>
    exact hkeep rfl (h.request hm now).snd
  | resume key now => exact hkeep rfl (h.resume hm now).snd
  | turnAway key => exact hkeep rfl (ensures_pure (h.turnAway key))
  | giveUp key => exact hkeep rfl (ensures_pure (h.giveUp key))
  | begin purpose => exact hkeep rfl (ensures_pure (h.beginPlanned hm))
  | endCreation id outcome =>
    obtain ⟨⟨c, hc, rfl, hn⟩, ho⟩ := hm
    obtain rfl : p.endCreation c.id outcome = q := congrArg Prod.fst hrun
    exact h.endCreation hc (Option.isNone_iff_eq_none.1 hn) ho
  | collect c outcome now =>
    exact hkeep rfl (h.collect hm.1 hm.2 now).snd
  | giveBack id now => exact hkeep rfl (h.giveBack id now)
  | onLoan id use => exact hkeep rfl (h.onLoan hm.2).snd
  | grow count => exact hkeep rfl (ensures_pure (h.grow count))
  | shrink count => exact hkeep rfl (h.shrink count).snd
  | sweep now => exact hkeep rfl (h.sweep now).snd
  | look now => exact hkeep rfl (ensures_pure { h with })
  | notePrewarmed => exact hkeep rfl (ensures_pure (h.counters _))
  | scratch change => exact hkeep rfl (ensures_pure { h with })
  | close =>
    exact hkeep rfl (ensures_pure { h with drained := fun hd => ⟨rfl, (h.drained hd).2⟩ })
  | drain => exact hkeep rfl (h.drain hm.1)

/-! ## Opening a pool -/

theorem ofConfig_eq_ok {config : PoolConfig} (h : ofConfig config = .ok p) :
    ∃ memory, p = { config := config.normalized
                    recent := { window := config.normalized.tunables.requestWindow }, memory } := by
  rw [ofConfig] at h
  cases hv : config.normalized.validate with
  | error e =>
    simp only [hv, Except.mapError] at h
    cases h
  | ok u =>
    simp only [hv, Except.mapError] at h
    cases h
    exact ⟨_, rfl⟩

theorem Balanced.ofConfig {config : PoolConfig} (h : Pool.ofConfig config = .ok p) :
    Balanced [] p 0 0 [] := by
  obtain ⟨memory, rfl⟩ := ofConfig_eq_ok h
  exact {
    total := rfl
    bounded := Nat.zero_le _
    available := rfl
    inUse := rfl
    borrowed := List.Perm.refl _
    permits := fun _ => rfl
    line := fun _ => rfl
    drained := fun hd => absurd hd.symm Bool.false_ne_true.symm
    numbers := ⟨List.nodup_nil, fun n hn => absurd hn List.not_mem_nil⟩
    keys := List.nodup_nil
    background := fun _ hp => absurd hp List.not_mem_nil
    stems := fun _ hi => absurd hi List.not_mem_nil
    ended := fun _ hc => absurd hc List.not_mem_nil
    distinct := ⟨List.nodup_nil, fun n hn => absurd hn List.not_mem_nil⟩
    unborn := fun _ hc => absurd hc List.not_mem_nil }

theorem dropCreation_endCreation (p : Pool) (id : Nat)
    (outcome : Except InterpreterError Interpreter) :
    (p.endCreation id outcome).dropCreation id = p.dropCreation id := by
  have hfilter : ∀ l : List Creation,
      (l.map fun c => if c.id == id then { c with outcome := some outcome } else c).filter
        (fun c => c.id != id) = l.filter fun c => c.id != id := by
    intro l
    induction l with
    | nil => rfl
    | cons c l ih =>
      rw [List.map_cons]
      by_cases hc : (c.id == id) = true
      · rw [if_pos hc, List.filter_cons_of_neg (by simpa using hc),
          List.filter_cons_of_neg (by simpa using hc), ih]
      · rw [if_neg hc, List.filter_cons_of_pos (by simpa using hc),
          List.filter_cons_of_pos (by simpa using hc), ih]
  exact congrArg (fun l => { p with creations := l }) (hfilter p.creations)

/-- While a pool is being opened, a creation is taken over as soon as it has ended. -/
theorem collect_endCreation (p : Pool) (c : Creation)
    (outcome : Except InterpreterError Interpreter) (now : Nat) :
    (p.endCreation c.id outcome).collect { c with outcome := some outcome } outcome now
      = p.collect c outcome now := by
  unfold collect
  rw [dropCreation_endCreation]

/-- The interpreters that a pool is opened with are in its books. -/
theorem Opening.balanced {config : PoolConfig} {made : List Interpreter}
    (h : Opening config made p) : Balanced made p 0 0 [] := by
  induction h with
  | empty h => exact Balanced.ofConfig h
  | @more made p q p' i now w w' _ _ slot number r ih =>
    have hbegun : Balanced made (q.begin .replacement) 0 0 [] :=
      (ih.reserve? slot).begin fun key he => Purpose.noConfusion he
    let c : Creation := { id := q.nextId, purpose := some .replacement }
    have hc : c ∈ (q.begin .replacement).creations := List.mem_append_right _ List.mem_cons_self
    have hi : ∀ j, (.ok i : Except InterpreterError Interpreter) = .ok j → j.id = c.id := by
      intro j hj
      rw [← Except.ok.inj hj]
      exact number
    have hended : Balanced (i :: made) ((q.begin .replacement).endCreation c.id (.ok i)) 0 0 [] :=
      hbegun.endCreation hc rfl hi
    have hmem : { c with outcome := some (.ok i) }
        ∈ ((q.begin .replacement).endCreation c.id (.ok i)).creations := by
      refine List.mem_map.2 ⟨c, hc, ?_⟩
      rw [if_pos (beq_self_eq_true _)]
    have hcollect := hended.collect hmem rfl now
    rw [collect_endCreation] at hcollect
    exact hcollect.of_run r

/-- While a pool is being opened, interpreters are made and nothing else is noted. -/
theorem Opening.standing {config : PoolConfig} {made : List Interpreter}
    (h : Opening config made p) : p.standing = {
      config := config.normalized
      closed := false
      recent := { window := config.normalized.tunables.requestWindow }
      created := made.length
      prewarmed := 0 } := by
  induction h with
  | empty h =>
    obtain ⟨memory, rfl⟩ := ofConfig_eq_ok h
    rfl
  | @more made p q p' i now w w' _ _ slot number r ih =>
    rw [((collected_collect (q.begin .replacement) _ (.ok i) now).of_run r).standing,
      (reserve?_eq_some slot).2]
    show { p.standing with created := p.standing.created + 1 } = _
    rw [ih]
    rfl

theorem Opening.config {config : PoolConfig} {made : List Interpreter}
    (h : Opening config made p) : p.config = config.normalized :=
  congrArg Standing.config h.standing

/-! ## Runs -/

theorem Run.balanced {config : PoolConfig} {opened : List Interpreter} {ms : List Move}
    (h : Run config opened ms p) : Balanced (madeIn opened ms) p 0 0 [] := by
  induction h with
  | start h => exact h.1.balanced
  | @step ms p p' m _ s ih =>
    have hs := Step.balanced ih s
    rw [madeIn] at hs ⊢
    rw [List.filterMap_cons]
    cases hm : m.made? with
    | none =>
      rw [hm] at hs
      exact hs
    | some i =>
      rw [hm] at hs
      exact hs

theorem Run.config {config : PoolConfig} {opened : List Interpreter} {ms : List Move}
    (h : Run config opened ms p) : p.config = config.normalized := by
  induction h with
  | start h => exact h.1.config
  | @step ms p p' m _ s ih =>
    obtain ⟨-, w, w', hrun⟩ := s
    exact ((Move.config p m).of_run hrun).trans ih

/-- The books of a pool between two moves, as they are read. -/
structure Accounts (p : Pool) : Prop where
  /-- Every occupied slot is that of an idle interpreter, of an interpreter on loan, or of a
  creation that was planned or goes on and is still wanted. -/
  total : p.total = p.idle.length + p.loans.length + p.reserved
  /-- The limit is kept. -/
  bounded : p.total ≤ p.config.maxSize
  available : p.available = p.idle.length
  inUse : p.inUse = p.loans.length
  borrowed : p.borrowed.length = p.inUse
  /-- The table of borrowers has an entry for every interpreter on loan. -/
  borrowers : (p.borrowed.map (·.1)).Perm (p.loans.map (·.id))
  /-- Every idle interpreter has a permit, which is free or granted. -/
  permits : p.drained = false → p.permits + p.granted.length = p.idle.length
  /-- Only a pool that was closed is ever drained. -/
  drained : p.drained = true → p.closed = true
  /-- No two interpreters have one number, whether they are idle or on loan. -/
  distinct : ((p.idle ++ p.loans).map (·.id)).Nodup

theorem Balanced.accounts (h : Balanced born p 0 0 []) : Accounts p where
  total := h.total
  bounded := h.bounded
  available := h.available
  inUse := h.inUse
  borrowed := by
    have hlen := h.borrowed.length_eq
    rw [List.length_map, List.length_map] at hlen
    rw [hlen, h.inUse]
  borrowers := h.borrowed
  permits := h.permits
  drained := fun hd => (h.drained hd).1
  distinct := by
    have hnodup : p.numbers.Nodup := h.numbers.nodup
    rw [List.map_append]
    exact hnodup.of_append_left

/-- **The accounts of a pool are right in every state of every run.**  The gauges agree with what
they count, so that none of them has run below zero; the limit of the configuration is kept, and no
two interpreters, on loan or idle, have one number.  Nor is a number used a second time: the
interpreters that have come into being since the pool was opened all have different numbers, and
those in the pool are among them. -/
theorem accounts_of_run {config : PoolConfig} {opened : List Interpreter} {ms : List Move}
    (h : Run config opened ms p) :
    Accounts p ∧ p.config = config.normalized ∧ ((madeIn opened ms).map (·.id)).Nodup
      ∧ ∀ i ∈ p.idle ++ p.loans, Stems (madeIn opened ms) i :=
  ⟨h.balanced.accounts, h.config, h.balanced.distinct.nodup, h.balanced.stems⟩

/-- A configuration for a single interpreter, which is made on demand. -/
def single : PoolConfig := { minSize := 0, maxSize := 1 }

/-- The interpreter that is made first. -/
def firstMade : Interpreter := { id := 1, state := 0, baseline := default, lastUsed := 0 }

/-- A request that has an interpreter made for it and is lent it. -/
theorem accounts_of_run_lent : ∃ p, Run single [] [
      .collect { id := 1, purpose := some (.request 7), outcome := some (.ok firstMade) }
        (.ok firstMade) 5,
      .endCreation 1 (.ok firstMade), .request 7 3] p ∧ p.loans.map (·.id) = [1]
    ∧ Accounts p ∧ p.config = single.normalized := by
  have h₀ : Run single [] [] _ := .start ⟨.empty rfl, Nat.zero_le _⟩
  have h₁ := h₀.step (m := .request 7 3) ⟨List.not_mem_nil, default, _, rfl⟩
  have h₂ := h₁.step (m := .endCreation 1 (.ok firstMade))
    ⟨⟨⟨_, List.mem_cons_self, rfl, rfl⟩, fun i hi => by cases hi; rfl⟩, default, _, rfl⟩
  have h₃ := h₂.step (m := .collect
    { id := 1, purpose := some (.request 7), outcome := some (.ok firstMade) } (.ok firstMade) 5)
    ⟨⟨List.mem_cons_self, rfl⟩, default, _, rfl⟩
  exact ⟨_, h₃, rfl, (accounts_of_run h₃).1, (accounts_of_run h₃).2.1⟩

end Pool
end ScriptPool
