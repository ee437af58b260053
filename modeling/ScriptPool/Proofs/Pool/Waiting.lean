import ScriptPool.Proofs.Pool.Accounts

/-!
# Requests that wait in line

A request gets in line only where no permit and no slot is free, and it leaves the line when a
permit is made.  No permit is made when a slot becomes free, though.  So a request is *stranded* if
a slot becomes free while it waits: it could have an interpreter made for it, but nobody tells it
so, and it goes on waiting for a return.

Slots do not become free often.  An interpreter that is discarded on its return is replaced within
the same move, and interpreters in the queue are discarded against permits that somebody in line
would have got.  What remains are the creations that come to nothing: they fail, or the request that
they are for is given up.  This file shows that there is nothing else.

## What is here

* `Stranded` — somebody waits in line although a slot is free.
* `Move.FreesSlot` — a creation comes to nothing.
* `Move.total_le_of_not_evicts` — any other move that serves nobody and evicts nothing occupies no
  fewer slots than before, and `Move.total_le` — neither does one that evicts, as long as somebody
  waits.
* `Step.stranded` — where nobody is stranded yet, **a move strands somebody exactly if it frees
  the slot of a creation while somebody is in line**.
-/

set_option autoImplicit false

namespace ScriptPool
namespace Pool

open Transition

/-- Somebody waits in line although there is a slot for another interpreter. -/
def Stranded (p : Pool) : Prop := p.waiters ≠ [] ∧ p.total < p.config.maxSize

/-- A creation comes to nothing: it has failed and is still wanted, or the request that it is for is
given up. -/
def Move.FreesSlot (p : Pool) : Move → Prop
  | .collect c (.error _) _ => c.purpose.isSome = true
  | .giveUp key => key ∉ p.granted ∧ p.creations.any (Creation.isFor · key) = true
  | _ => False

variable {born : List Interpreter} {p q : Pool}

/-! ## Operations that do not free a slot

Operations that discard idle interpreters need permits, and there are none while somebody waits; the
others put back the slot that they take.  So it is enough to tell the two kinds apart. -/

theorem total_le_plan? {purpose : Purpose} (h : p.plan? purpose = some q) : p.total ≤ q.total := by
  rw [plan?] at h
  split at h
  · cases h
  · obtain ⟨r, hr, rfl⟩ := Option.map_eq_some_iff.1 h
    rw [(reserve?_eq_some hr).2]
    exact Nat.le_succ _

theorem total_le_refill (n : Nat) : ∀ p : Pool, p.total ≤ (refill n p).total := by
  induction n with
  | zero => exact fun p => Nat.le_refl _
  | succ n ih =>
    intro p
    rw [refill]
    cases h : p.plan? .replacement with
    | none => exact Nat.le_refl _
    | some q => exact Nat.le_trans (total_le_plan? h) (ih q)

theorem total_le_grow (n : Nat) : ∀ p : Pool, p.total ≤ (p.grow n).2.total := by
  induction n with
  | zero => exact fun p => Nat.le_refl _
  | succ n ih =>
    intro p
    rw [grow]
    cases h : p.plan? .growth with
    | none => exact Nat.le_refl _
    | some q => exact Nat.le_trans (total_le_plan? h) (ih q)

theorem total_addPermit (p : Pool) : p.addPermit.total = p.total := by
  rw [addPermit]
  split <;> rfl

theorem total_addIdle (hopen : p.closed = false) (i : Interpreter) :
    Ensures (p.addIdle i) fun q => q.total = p.total := by
  rw [addIdle]
  rw [hopen, if_neg Bool.false_ne_true]
  exact ensures_pure (total_addPermit _)

theorem total_discard (p : Pool) (i : Interpreter) :
    Ensures (p.discard i) fun q => q.total = lowered p.total 1 :=
  (ensures_true _).bind fun _ _ => ensures_pure rfl

/-- In an open pool, an interpreter is replaced if there is a slot for it. -/
theorem total_replace (hopen : p.closed = false) :
    p.config.maxSize ≤ p.replace.total ∨ p.replace.total = p.total + 1 := by
  rw [replace, plan?]
  rw [hopen, if_neg Bool.false_ne_true]
  cases hr : p.reserve? with
  | none => exact .inl (reserve?_eq_none hr)
  | some q =>
    refine .inr ?_
    show q.total = p.total + 1
    rw [(reserve?_eq_some hr).2]

/-- The slot of an interpreter that is discarded on its return is occupied again at once. -/
theorem total_le_recycle (hopen : p.closed = false) (hle : p.total ≤ p.config.maxSize)
    (i : Interpreter) : Ensures (p.recycle i) fun q => p.total ≤ q.total := by
  refine ((keeps_discard _ i).and (total_discard _ i)).bind fun q hq => ensures_pure ?_
  obtain ⟨hkeeps, htotal⟩ := hq
  have hconfig : q.config = p.config := hkeeps.config
  have hq : q.total = lowered p.total 1 := htotal
  rcases total_replace (hkeeps.closed.trans hopen) with hmax | hone
  · rw [hconfig] at hmax
    exact Nat.le_trans hle hmax
  · rw [hone, hq]
    exact le_lowered_add _ _

theorem total_le_takeBack (hopen : p.closed = false) (hle : p.total ≤ p.config.maxSize)
    (i : Interpreter) (now : Nat) : Ensures (p.takeBack i now) fun q => p.total ≤ q.total := by
  have hend : (p.endLoan i.id now).closed = false := hopen
  rw [takeBack]
  show Ensures (if (p.endLoan i.id now).closed then _ else _) _
  rw [hend, if_neg Bool.false_ne_true]
  split
  · exact total_le_recycle hend hle i
  · refine (ensures_true _).bind fun r _ => ?_
    rcases r with ⟨_ | _, j⟩
    · exact total_le_recycle hend hle j
    · exact (total_addIdle hend _).mono fun q hq => Nat.le_of_eq hq.symm

theorem total_le_giveBack (hopen : p.closed = false) (hle : p.total ≤ p.config.maxSize)
    (id now : Nat) : Ensures (p.giveBack id now) fun q => p.total ≤ q.total := by
  rw [giveBack]
  split
  · exact ensures_pure (Nat.le_refl _)
  · exact total_le_takeBack hopen hle _ now

/-- Without a free permit, the scaler takes nothing away. -/
theorem shrink_eq (h : p.permits = 0) (n : Nat) : p.shrink n = pure (0, p) := by
  have htake : p.takePermit? = none := by
    rw [takePermit?]
    rw [h]
    split <;> rfl
  cases n with
  | zero => rfl
  | succ n =>
    rw [shrink]
    rw [htake]
    split <;> rfl

/-- Without a free permit, nothing is evicted. -/
theorem splitStale_zero (stale : Interpreter → Bool) (l : List Interpreter) :
    (splitStale stale 0 l).1 = [] := List.eq_nil_of_length_eq_zero
  (Nat.le_zero.1 (splitStale_cut stale 0 l).2)

theorem total_le_sweep (h : p.permits = 0) (now : Nat) :
    Ensures (p.sweep now) fun r => p.total ≤ r.2.total := by
  have hfree : (if p.drained then 0 else p.permits) = 0 := by rw [h, ite_self]
  rw [sweep]
  dsimp only
  rw [hfree]
  have hout := splitStale_zero (isStale p.config now) p.idle
  generalize splitStale (isStale p.config now) 0 p.idle = cut at hout
  obtain ⟨out, kept⟩ := cut
  obtain rfl : out = [] := hout
  refine ensures_pure (Nat.le_trans ?_ (total_le_refill _ _))
  exact Nat.le_refl _

theorem total_le_collect (hopen : p.closed = false) {c : Creation}
    {outcome : Except InterpreterError Interpreter} {now : Nat}
    (hm : ¬ (Move.collect c outcome now).FreesSlot p) :
    Ensures (p.collect c outcome now) fun r => p.total ≤ r.2.total := by
  unfold collect
  cases hw : c.purpose with
  | none =>
    cases outcome with
    | error e => exact ensures_pure (Nat.le_refl _)
    | ok i => exact (ensures_true _).bind fun _ _ => ensures_pure (Nat.le_refl _)
  | some purpose =>
    cases outcome with
    | error e => exact absurd (show c.purpose.isSome = true by rw [hw]; rfl) hm
    | ok i =>
      cases purpose with
      | request key => exact ensures_pure (Nat.le_refl _)
      | replacement =>
        refine (total_addIdle ?_ i).bind fun q hq => ensures_pure (Nat.le_of_eq hq.symm)
        exact hopen
      | growth =>
        refine (total_addIdle ?_ i).bind fun q hq => ensures_pure (Nat.le_of_eq hq.symm)
        exact hopen

theorem total_le_giveUp {key : Nat} (hm : ¬ (Move.giveUp key).FreesSlot p) :
    p.total ≤ (p.giveUp key).total := by
  rw [giveUp]
  split
  · refine Nat.le_trans ?_ (Nat.le_of_eq (total_addPermit _).symm)
    exact Nat.le_refl _
  · rename_i hg
    split
    · rename_i hc
      exact absurd ⟨fun hk => hg (List.contains_iff_mem.2 hk), hc⟩ hm
    · exact Nat.le_refl _

/-- Does a move discard idle interpreters, as far as there are permits for it? -/
def Move.Evicts : Move → Prop
  | .shrink _ => True
  | .sweep _ => True
  | _ => False

/-- In an open pool, no slot becomes free by a move that serves nobody and evicts nothing, except
that of a creation that comes to nothing. -/
theorem Move.total_le_of_not_evicts {m : Move} (h : Balanced born p 0 0 []) (ha : m.Allowed p)
    (hopen : p.closed = false) (he : ¬ m.IsEntry) (hv : ¬ m.Evicts) (hm : ¬ m.FreesSlot p) :
    Ensures (m.apply p) fun q => p.total ≤ q.total := by
  cases m with
  | request key now => exact absurd trivial he
  | resume key now => exact absurd trivial he
  | close => exact absurd trivial he
  | shrink count => exact absurd trivial hv
  | sweep now => exact absurd trivial hv
  | turnAway key => exact ensures_pure (Nat.le_refl _)
  | giveUp key => exact ensures_pure (total_le_giveUp hm)
  | begin purpose => exact ensures_pure (Nat.le_refl _)
  | endCreation id outcome => exact ensures_pure (Nat.le_refl _)
  | collect c outcome now => exact (total_le_collect hopen hm).snd
  | giveBack id now => exact total_le_giveBack hopen h.bounded id now
  | onLoan id use =>
    have huse : Ensures (p.onLoan id use) fun r => p.total ≤ r.2.total := by
      rw [Pool.onLoan]
      split
      · exact ensures_pure (Nat.le_refl _)
      · exact (ensures_true _).bind fun _ _ => ensures_pure (Nat.le_refl _)
    exact huse.snd
  | grow count => exact ensures_pure (total_le_grow count p)
  | look now => exact ensures_pure (Nat.le_refl _)
  | notePrewarmed => exact ensures_pure (Nat.le_refl _)
  | scratch change => exact ensures_pure (Nat.le_refl _)
  | drain => exact absurd (ha.1.symm.trans hopen) Bool.false_ne_true.symm

/-- **While somebody waits in line, no slot becomes free** in an open pool, except that of a
creation that comes to nothing. -/
theorem Move.total_le {m : Move} (h : Balanced born p 0 0 []) (ha : m.Allowed p)
    (hopen : p.closed = false) (hw : p.waiters ≠ []) (he : ¬ m.IsEntry) (hm : ¬ m.FreesSlot p) :
    Ensures (m.apply p) fun q => p.total ≤ q.total := by
  have hpermits : p.permits = 0 := h.line hw
  by_cases hv : m.Evicts
  · cases m with
    | shrink count =>
      show Ensures (p.shrink count >>= fun r => pure r.2) _
      rw [shrink_eq hpermits]
      exact ensures_pure (Nat.le_refl _)
    | sweep now => exact (total_le_sweep hpermits now).snd
    | _ => exact hv.elim
  · exact Move.total_le_of_not_evicts h ha hopen he hv hm

/-! ## Requests -/

/-- Whoever is served in spite of a line behind him takes a free slot, if there is one; so there
must have been two of them if one is left. -/
theorem stranded_serve (hopen : p.closed = false) (hline : p.waiters ≠ [] → p.permits = 0)
    (key now : Nat) (waitedBefore : Bool) :
    Ensures (p.serve key now waitedBefore) fun r =>
      Stranded r.2 → p.waiters ≠ [] ∧ p.total + 1 < p.config.maxSize := by
  rw [serve]
  rw [hopen, if_neg Bool.false_ne_true]
  have hfull : ∀ q : Pool, q.config.maxSize ≤ q.total → ∀ l, ¬ Stranded { q with waiters := l } :=
    fun q hq l hs => Nat.not_lt.2 hq hs.2
  by_cases hw : p.waiters = []
  · refine (receives_checkOutAny p.permits p).bind fun r hr => ?_
    have hnobody : r.2.waiters = [] := List.sublist_nil.1 (hw ▸ hr.1.waiters)
    rcases r with ⟨_ | i, r⟩
    · dsimp only
      cases hres : r.reserve? with
      | some q =>
        rw [(reserve?_eq_some hres).2]
        exact ensures_pure fun hs => absurd hnobody hs.1
      | none =>
        have hmax := reserve?_eq_none hres
        refine ensures_pure fun hs => absurd hs ?_
        cases waitedBefore with
        | true => exact hfull r hmax _
        | false => exact hfull r.noteWait hmax _
    · exact ensures_pure fun hs => absurd hnobody hs.1
  · rw [hline hw, checkOutAny, pure_bind]
    dsimp only
    cases hres : p.reserve? with
    | some q =>
      rw [(reserve?_eq_some hres).2]
      exact ensures_pure fun hs => ⟨hw, hs.2⟩
    | none =>
      have hmax := reserve?_eq_none hres
      refine ensures_pure fun hs => absurd hs ?_
      cases waitedBefore with
      | true => exact hfull p hmax _
      | false => exact hfull p.noteWait hmax _

/-- Taking an interpreter out of the queue frees no slot. -/
theorem total_takeIdle? {i : Interpreter} (h : p.takeIdle? = some (i, q)) : q.total = p.total := by
  rw [takeIdle?] at h
  split at h
  · cases h
  · obtain ⟨-, rfl⟩ := Prod.mk.inj (Option.some.inj h)
    rfl

/-- A slot becomes free in checking an interpreter out only if none is found. -/
theorem total_checkOut (p : Pool) : Ensures p.checkOut fun r =>
    p.total ≤ r.2.total + 1 ∧ (r.1 ≠ none → r.2.total = p.total) := by
  rw [checkOut]
  split
  · exact ensures_pure ⟨Nat.le_succ _, fun hne => absurd rfl hne⟩
  · rename_i i q hq
    have htotal := total_takeIdle? hq
    split
    · refine (total_discard q i).bind fun r hr => ensures_pure ⟨?_, fun hne => absurd rfl hne⟩
      show p.total ≤ r.total + 1
      rw [hr, htotal]
      exact le_lowered_add _ _
    · exact ensures_pure ⟨Nat.le_succ_of_le (Nat.le_of_eq htotal.symm), fun _ => htotal⟩

theorem stranded_resume (h : Balanced born p 0 0 []) (hopen : p.closed = false) (key now : Nat) :
    Ensures (p.resume key now) fun r => Stranded r.2 → Stranded p := by
  rw [resume]
  refine ((keeps_checkOut _).and (total_checkOut _)).bind fun r hr => ?_
  obtain ⟨hkeeps, hle, heq⟩ := hr
  have hconfig : r.2.config = p.config := hkeeps.config
  have hwaiters : r.2.waiters = p.waiters := hkeeps.waiters
  rcases r with ⟨_ | i, r⟩
  · have hline : r.waiters ≠ [] → r.permits = 0 := fun hne =>
      hkeeps.permits.trans (h.line (hwaiters ▸ hne))
    refine (stranded_serve (hkeeps.closed.trans hopen) hline key now true).mono fun q hq hs => ?_
    obtain ⟨hne, hlt⟩ := hq hs
    have hle : p.total ≤ r.total + 1 := hle
    exact ⟨hwaiters ▸ hne, Nat.lt_of_le_of_lt hle (hconfig ▸ hlt)⟩
  · have htotal : r.total = p.total := heq (Option.some_ne_none i)
    refine ensures_pure fun hs => ⟨?_, ?_⟩
    · exact hwaiters ▸ hs.1
    · exact htotal ▸ hconfig ▸ hs.2

/-! ## Moves -/

theorem Step.open {m : Move} (s : Step p m q) (hopen : q.closed = false) : p.closed = false := by
  obtain ⟨-, w, w', hrun⟩ := s
  cases hc : p.closed with
  | false => rfl
  | true =>
    have hq := (Move.closed m hc).of_run hrun
    exact hq.symm.trans hopen

/-- A creation that is wanted occupies a slot, which can be given up. -/
theorem Balanced.lowered_add_one (h : Balanced born p 0 0 []) {c : Creation}
    (hc : c ∈ p.creations) (hw : c.purpose.isSome = true) : lowered p.total 1 + 1 = p.total := by
  have hpos : 0 < p.creations.countP fun c => c.purpose.isSome :=
    List.countP_pos_iff.2 ⟨c, hc, hw⟩
  have htotal := h.total
  rw [Pool.reserved] at htotal
  rw [lowered_of_le (by omega)]
  omega

/-- A creation that comes to nothing leaves its slot, and everybody who waits where he is. -/
theorem Move.FreesSlot.frees {m : Move} (hm : m.FreesSlot p) (h : Balanced born p 0 0 [])
    (ha : m.Allowed p) :
    Ensures (m.apply p) fun q => q.total + 1 = p.total ∧ q.waiters = p.waiters := by
  cases m with
  | collect c outcome now =>
    cases outcome with
    | ok i => exact hm.elim
    | error e =>
      have hone := h.lowered_add_one ha.1 hm
      have hcollect : Ensures (p.collect c (.error e) now) fun r =>
          r.2.total + 1 = p.total ∧ r.2.waiters = p.waiters := by
        unfold Pool.collect
        cases hp : c.purpose with
        | none =>
          have hsome : c.purpose.isSome = true := hm
          rw [hp] at hsome
          cases hsome
        | some purpose => cases purpose <;> exact ensures_pure ⟨hone, rfl⟩
      exact hcollect.snd
  | giveUp key =>
    obtain ⟨hg, hc⟩ := hm
    obtain ⟨c, hmem, hfor⟩ := List.any_eq_true.1 hc
    have hsome : c.purpose.isSome = true := by
      rw [(Creation.isFor_iff c key).1 hfor]
      rfl
    refine ensures_pure ?_
    rw [Pool.giveUp]
    rw [if_neg (fun hk => hg (List.contains_iff_mem.1 hk)), if_pos hc]
    exact ⟨h.lowered_add_one hmem hsome, rfl⟩
  | _ => exact hm.elim

/-- Whoever waits while a creation comes to nothing is stranded. -/
theorem Move.FreesSlot.stranded {m : Move} (hm : m.FreesSlot p) (h : Balanced born p 0 0 [])
    (ha : m.Allowed p) (hw : p.waiters ≠ []) : Ensures (m.apply p) fun q => Stranded q := by
  refine ((hm.frees h ha).and (Move.config p m)).mono fun q hq => ?_
  obtain ⟨⟨hone, hwaiters⟩, hconfig⟩ := hq
  have hle := h.bounded
  refine ⟨hwaiters ▸ hw, ?_⟩
  rw [hconfig]
  omega

/-- **Where nobody is stranded, a move strands somebody exactly if it frees the slot of a creation
while somebody waits in line.** -/
theorem Step.stranded {m : Move} (h : Balanced born p 0 0 []) (s : Step p m q)
    (hopen : q.closed = false) (hp : ¬ Stranded p) :
    Stranded q ↔ m.FreesSlot p ∧ p.waiters ≠ [] := by
  have hopenp := s.open hopen
  obtain ⟨ha, w, w', hrun⟩ := s
  constructor
  · intro hq
    by_cases he : m.IsEntry
    · refine absurd ?_ hp
      cases m with
      | request key now =>
        have hline : p.waiters ≠ [] → p.permits = 0 := h.line
        have hrequest : Ensures (p.request key now) fun r => Stranded r.2 → Stranded p := by
          refine (stranded_serve ?_ ?_ key now false).mono fun r hr hs => ?_
          · exact hopenp
          · exact h.line
          · exact ⟨(hr hs).1, Nat.lt_of_succ_lt (hr hs).2⟩
        have hmove : Ensures (Move.apply p (.request key now)) fun q => Stranded q → Stranded p :=
          hrequest.snd
        exact hmove.of_run hrun hq
      | resume key now =>
        have hmove : Ensures (Move.apply p (.resume key now)) fun q => Stranded q → Stranded p :=
          (stranded_resume h hopenp key now).snd
        exact hmove.of_run hrun hq
      | close =>
        obtain rfl : p.close = q := congrArg Prod.fst hrun
        exact absurd hopen Bool.false_ne_true.symm
      | _ => exact he.elim
    · have hline := Move.waiters ha hrun he
      have hconfig := (Move.config p m).of_run hrun
      have hw : p.waiters ≠ [] := fun hw => hq.1 (List.sublist_nil.1 (hw ▸ hline))
      refine ⟨?_, hw⟩
      by_contra hf
      have hle := (Move.total_le h ha hopenp hw he hf).of_run hrun
      exact hp ⟨hw, Nat.lt_of_le_of_lt hle (hconfig ▸ hq.2)⟩
  · rintro ⟨hm, hw⟩
    exact (hm.stranded h ha hw).of_run hrun

/-! ## Runs

Somebody who is stranded may have been so for long.  Going back through the run leads to the move
that has stranded him. -/

theorem Opening.waiters {config : PoolConfig} {made : List Interpreter}
    (h : Opening config made p) : p.waiters = [] := by
  induction h with
  | empty h =>
    obtain ⟨memory, rfl⟩ := ofConfig_eq_ok h
    rfl
  | @more made p q p' i now w w' _ _ slot number r ih =>
    have hw := ((collected_collect (q.begin .replacement) _ (.ok i) now).of_run r).waiters
    have hq : (q.begin .replacement).waiters = [] := by
      rw [(reserve?_eq_some slot).2]
      exact ih
    rw [hq] at hw
    exact List.sublist_nil.1 hw

/-- Somebody is stranded only after a creation came to nothing while somebody waited in line. -/
theorem Run.exists_freesSlot {config : PoolConfig} {opened : List Interpreter} {ms : List Move}
    (h : Run config opened ms p) (hopen : p.closed = false) (hs : Stranded p) :
    ∃ later m before q, ms = later ++ m :: before ∧ Run config opened before q
      ∧ m.FreesSlot q ∧ q.waiters ≠ [] := by
  induction h with
  | start h => exact absurd h.1.waiters hs.1
  | @step ms p p' m hrun s ih =>
    by_cases hp : Stranded p
    · obtain ⟨later, m', before, q, rfl, hq⟩ := ih (s.open hopen) hp
      exact ⟨m :: later, m', before, q, rfl, hq⟩
    · obtain ⟨hm, hw⟩ := (Step.stranded hrun.balanced s hopen hp).1 hs
      exact ⟨[], m, ms, p, rfl, hrun, hm, hw⟩

/-- **Who waits in line, and for what.**  In an open pool, at any moment of any run, whoever waits
in line waits because all idle interpreters are granted to others and, unless somebody is stranded,
all slots are occupied.  Where nobody is stranded, the next move strands somebody exactly if it
frees the slot of a creation while somebody waits; so if somebody is stranded, that is how it came
about. -/
theorem waiting_of_run {config : PoolConfig} {opened : List Interpreter} {ms : List Move}
    (h : Run config opened ms p) (hopen : p.closed = false) :
    (p.waiters ≠ [] → p.permits = 0 ∧ p.granted.length = p.idle.length
      ∧ (¬ Stranded p → p.total = p.config.maxSize))
    ∧ (¬ Stranded p → ∀ m q, Step p m q → q.closed = false →
      (Stranded q ↔ m.FreesSlot p ∧ p.waiters ≠ []))
    ∧ (Stranded p → ∃ later m before q, ms = later ++ m :: before ∧ Run config opened before q
      ∧ m.FreesSlot q ∧ q.waiters ≠ []) := by
  refine ⟨fun hw => ?_, fun hs m q s hq => s.stranded h.balanced hq hs,
    fun hs => h.exists_freesSlot hopen hs⟩
  have hdrained : p.drained = false := by
    cases hd : p.drained with
    | false => rfl
    | true =>
      have hclosed := (h.balanced.drained hd).1
      exact hclosed.symm.trans hopen
  have hpermits := h.balanced.line hw
  have hidle := h.balanced.permits hdrained
  rw [hpermits, Nat.zero_add, Nat.add_zero] at hidle
  refine ⟨hpermits, hidle, fun hs => Nat.le_antisymm h.balanced.bounded ?_⟩
  exact Nat.not_lt.1 fun hlt => hs ⟨hw, hlt⟩

/-- The creation for one request fails while another request waits in line: the pool is empty then,
with nothing in the making, and the second request waits all the same. -/
theorem waiting_of_run_forgotten : ∃ ms p, Run single [] ms p ∧ p.closed = false
    ∧ p.waiters = [8] ∧ p.idle = [] ∧ p.loans = [] ∧ p.planned = [] ∧ p.creations = []
    ∧ p.total = 0 ∧ p.config.maxSize = 1
    ∧ ∃ later m before q, ms = later ++ m :: before ∧ Run single [] before q
      ∧ m.FreesSlot q ∧ q.waiters ≠ [] := by
  have h₀ : Run single [] [] _ := .start ⟨.empty rfl, Nat.zero_le _⟩
  have h₁ := h₀.step (m := .request 7 3) ⟨List.not_mem_nil, default, _, rfl⟩
  have h₂ := h₁.step (m := .request 8 4) ⟨show 8 ∉ [7] by decide, default, _, rfl⟩
  have h₃ := h₂.step (m := .endCreation 1 (.error (.creation "out of memory")))
    ⟨⟨⟨_, List.mem_cons_self, rfl, rfl⟩, fun i hi => by cases hi⟩, default, _, rfl⟩
  have h₄ := h₃.step (m := .collect
    { id := 1, purpose := some (.request 7), outcome := some (.error (.creation "out of memory")) }
    (.error (.creation "out of memory")) 5) ⟨⟨List.mem_cons_self, rfl⟩, default, _, rfl⟩
  exact ⟨_, _, h₄, rfl, rfl, rfl, rfl, rfl, rfl, rfl, rfl,
    (waiting_of_run h₄ rfl).2.2 ⟨List.cons_ne_nil 8 [], Nat.zero_lt_one⟩⟩

end Pool
end ScriptPool
