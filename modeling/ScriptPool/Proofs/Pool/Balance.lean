import Mathlib.Data.List.Nodup
import Mathlib.Data.List.Perm.Basic
import ScriptPool.Proofs.Pool.Moves

/-!
# The books of a pool

A pool keeps the same facts in several places: the queue of idle interpreters comes with a gauge and
with permits, the interpreters on loan come with a gauge and with a table of borrowers, and `total`
is supposed to be the sum of everything that occupies a slot.  `Balanced` says that these places
agree.

## In the middle of a move

Within a move they do not.  An interpreter that was just taken out of the queue occupies a slot and
is nowhere; a permit that was just taken has no interpreter to go with it.  So `Balanced` has three
more arguments, and they are what a move has in hand:

* `slots` — slots that are counted in `total` and belong to nothing in the pool,
* `taken` — permits that were taken, while their interpreters are still in the queue,
* `hand` — interpreters that are in neither the queue nor on loan.

Each of the basic operations shifts something from the pool to the hand or back, and has one lemma
here that says what.  Between moves the hand is empty; this is `Balanced born p 0 0 []`.

## No gauge runs below zero

A gauge that is lowered once too often goes on from the top of its range, far above the number of
anything that a pool could hold.  The equations hold after every operation as well as before, and
wherever a gauge is lowered they are used to show that it was high enough.
-/

set_option autoImplicit false

namespace ScriptPool
namespace Pool

open Transition

/-! ## Gauges -/

theorem lowered_of_le {gauge count : Nat} (h : count ≤ gauge) :
    lowered gauge count = gauge - count := if_pos h

/-- What was taken from a gauge brings it back up, or higher than that. -/
theorem le_lowered_add (gauge count : Nat) : gauge ≤ lowered gauge count + count := by
  rw [lowered]
  split <;> omega

/-! ## Numbers that are used once

Counting is all that is needed here: numbers that differ occur at most once each, so whatever moves
an interpreter from one place to another leaves them as they are. -/

/-- The numbers of a list differ and have been given out. -/
structure Numbered (next : Nat) (l : List Nat) : Prop where
  nodup : l.Nodup
  lt : ∀ n ∈ l, n < next

/-- Numbers that occur no more often than before are still in order. -/
theorem Numbered.of_count {next : Nat} {l l' : List Nat} (h : Numbered next l)
    (hc : ∀ n, l'.count n ≤ l.count n) : Numbered next l' := by
  refine ⟨List.nodup_iff_count_le_one.2 fun n => ?_, fun n hn => h.lt n ?_⟩
  · exact Nat.le_trans (hc n) (List.nodup_iff_count_le_one.1 h.nodup n)
  · exact List.count_pos_iff.1 (Nat.lt_of_lt_of_le (List.count_pos_iff.2 hn) (hc n))

theorem nodup_of_count {l l' : List Nat} (h : l.Nodup) (hc : ∀ n, l'.count n ≤ l.count n) :
    l'.Nodup :=
  List.nodup_iff_count_le_one.2 fun n => Nat.le_trans (hc n) (List.nodup_iff_count_le_one.1 h n)

/-- The next number may be added. -/
theorem Numbered.cons_next {next : Nat} {l : List Nat} (h : Numbered next l) :
    Numbered (next + 1) (next :: l) := by
  refine ⟨List.nodup_cons.2 ⟨fun hn => Nat.lt_irrefl _ (h.lt _ hn), h.nodup⟩, fun n hn => ?_⟩
  rcases List.mem_cons.1 hn with rfl | hn
  · exact Nat.lt_succ_self _
  · exact Nat.lt_succ_of_lt (h.lt n hn)

theorem Numbered.mono {next next' : Nat} {l : List Nat} (h : Numbered next l)
    (hle : next ≤ next') : Numbered next' l :=
  ⟨h.nodup, fun n hn => Nat.lt_of_lt_of_le (h.lt n hn) hle⟩

/-- Where the numbers of a list differ, taking out those with the number of a member takes out just
that member. -/
theorem perm_cons_filter {α : Type} {f : α → Nat} {l : List α} {a : α} (hl : (l.map f).Nodup)
    (ha : a ∈ l) : l.Perm (a :: l.filter fun b => f b != f a) := by
  induction l with
  | nil => cases ha
  | cons b l ih =>
    rw [List.map_cons, List.nodup_cons] at hl
    rcases List.mem_cons.1 ha with rfl | ha
    · have hself : l.filter (fun b => f b != f a) = l := by
        refine List.filter_eq_self.2 fun c hc => bne_iff_ne.2 fun he => hl.1 ?_
        rw [← he]
        exact List.mem_map_of_mem hc
      rw [List.filter_cons_of_neg (by simp), hself]
    · have hne : (f b != f a) = true := by
        refine bne_iff_ne.2 fun he => hl.1 ?_
        rw [he]
        exact List.mem_map_of_mem ha
      rw [List.filter_cons, if_pos hne]
      exact ((ih hl.2 ha).cons b).trans (List.Perm.swap a b _)

/-! ## The place of the next interpreter -/

theorem leastFrom_lt {m : Nat} (l : List Nat) :
    ∀ {i : Nat} {best : Nat × Nat}, best.2 < m → i + l.length ≤ m →
      LoadTable.leastFrom i best l < m := by
  induction l with
  | nil => exact fun hb _ => hb
  | cons n l ih =>
    intro i best hb hi
    rw [List.length_cons] at hi
    rw [LoadTable.leastFrom]
    refine ih ?_ (by omega)
    split
    · show i < m
      omega
    · exact hb

theorem leastLoaded?_lt {t : LoadTable} {ids : List Nat} {k : Nat}
    (h : t.leastLoaded? ids = some k) : k < ids.length := by
  have hlen : ((ids.take loadSample).map t.count).length ≤ ids.length := by
    rw [List.length_map, List.length_take]
    exact Nat.min_le_right _ _
  rw [LoadTable.leastLoaded?] at h
  split at h
  · cases h
  · rename_i n rest hl
    rw [hl, List.length_cons] at hlen
    cases h
    exact leastFrom_lt rest (by show 0 < ids.length; omega) (by omega)

/-- The place of the next interpreter is inside the queue. -/
theorem nextPlace_lt {p : Pool} (h : p.idle ≠ []) : p.nextPlace < p.idle.length := by
  have hpos : 0 < p.idle.length := List.length_pos_iff.2 h
  rw [nextPlace]
  split
  · cases hl : p.loads.leastLoaded? (p.idle.map (·.id)) with
    | none => exact hpos
    | some k =>
      have hk := leastLoaded?_lt hl
      rw [List.length_map] at hk
      exact hk
  · exact hpos

theorem takeIdle?_eq_none {p : Pool} (h : p.takeIdle? = none) : p.idle = [] := by
  rw [takeIdle?] at h
  split at h
  · rename_i hn
    by_contra hne
    exact absurd (nextPlace_lt hne) (Nat.not_lt.2 (List.getElem?_eq_none_iff.1 hn))
  · cases h

/-! ## The books -/

/-- The interpreter is one of those that have come into being: it has the number and the guest state
of one of them. -/
def Stems (born : List Interpreter) (i : Interpreter) : Prop :=
  ∃ b ∈ born, b.id = i.id ∧ b.state = i.state

/-- The books of a pool agree, up to what a move has in hand.  `born` are the interpreters that have
come into being so far. -/
structure Balanced (born : List Interpreter) (p : Pool) (slots taken : Nat)
    (hand : List Interpreter) : Prop where
  /-- Every slot is occupied by an interpreter or reserved for one. -/
  total : p.total = p.idle.length + p.loans.length + p.reserved + slots
  /-- The limit is kept. -/
  bounded : p.total ≤ p.config.maxSize
  available : p.available = p.idle.length
  inUse : p.inUse = p.loans.length
  borrowed : (p.borrowed.map (·.1)).Perm (p.loans.map (·.id))
  /-- Every idle interpreter has its permit. -/
  permits : p.drained = false → p.permits + p.granted.length + taken = p.idle.length
  /-- Nobody stands in line while a permit is free. -/
  line : p.waiters ≠ [] → p.permits = 0
  drained : p.drained = true → p.closed = true ∧ p.idle = []
  /-- No two interpreters or creations have one number. -/
  numbers : Numbered p.nextId (hand.map (·.id) ++ p.numbers)
  /-- A request waits in one place only. -/
  keys : p.keys.Nodup
  background : ∀ purpose ∈ p.planned, ∀ key, purpose ≠ .request key
  stems : ∀ i ∈ hand ++ p.idle ++ p.loans, Stems born i
  /-- A creation ends with the interpreter that it was begun for. -/
  ended : ∀ c ∈ p.creations, ∀ i, c.outcome = some (.ok i) → i.id = c.id ∧ Stems born i
  /-- No two interpreters that have come into being have one number. -/
  distinct : Numbered p.nextId (born.map (·.id))
  /-- A creation that goes on is for an interpreter that has not come into being. -/
  unborn : ∀ c ∈ p.creations, c.outcome = none → c.id ∉ born.map (·.id)

variable {born : List Interpreter} {p q : Pool} {slots taken : Nat} {hand : List Interpreter}
  {i : Interpreter}

namespace Balanced

/-- The counters are not part of the books. -/
theorem counters (h : Balanced born p slots taken hand) (c : PoolCounters) :
    Balanced born { p with counters := c } slots taken hand := { h with }

/-! ## Slots -/

theorem reserve? (h : Balanced born p slots taken hand) (hr : p.reserve? = some q) :
    Balanced born q (slots + 1) taken hand := by
  rw [Pool.reserve?] at hr
  split at hr
  · rename_i hlt
    cases hr
    refine { h with total := ?_, bounded := hlt }
    show p.total + 1 = p.idle.length + p.loans.length + p.reserved + (slots + 1)
    rw [h.total, Nat.add_assoc]
  · cases hr

/-- There is a slot to be given up, where one is in hand. -/
theorem lowered_total (h : Balanced born p (slots + 1) taken hand) :
    lowered p.total 1 = p.idle.length + p.loans.length + p.reserved + slots
      ∧ lowered p.total 1 ≤ p.config.maxSize := by
  have htotal := h.total
  have hbounded := h.bounded
  rw [lowered_of_le (by omega)]
  omega

theorem release (h : Balanced born p (slots + 1) taken hand) :
    Balanced born p.release slots taken hand := by
  obtain ⟨htotal, hbounded⟩ := h.lowered_total
  exact { h with total := htotal, bounded := hbounded }

theorem noteFailure (h : Balanced born p (slots + 1) taken hand) :
    Balanced born p.noteFailure slots taken hand := h.release.counters _

/-! ## Permits -/

theorem addPermit (h : Balanced born p slots (taken + 1) hand) :
    Balanced born p.addPermit slots taken hand := by
  rw [Pool.addPermit]
  split
  · rename_i key rest hw
    refine { h with permits := fun hd => ?_, line := fun _ => ?_, keys := ?_ }
    · have hp := h.permits hd
      show p.permits + (p.granted ++ [key]).length + taken = p.idle.length
      rw [List.length_append, List.length_singleton]
      omega
    · exact h.line (by rw [hw]; exact List.cons_ne_nil key rest)
    · refine nodup_of_count h.keys fun n => ?_
      simp only [Pool.keys, hw, List.count_append, List.count_cons, List.count_nil]
      omega
  · rename_i hw
    refine { h with permits := fun hd => ?_, line := fun hne => absurd hw hne }
    have hp := h.permits hd
    show p.permits + 1 + p.granted.length + taken = p.idle.length
    omega

theorem takePermit? (h : Balanced born p slots taken hand) (hp : p.takePermit? = some q) :
    Balanced born q slots (taken + 1) hand := by
  rw [Pool.takePermit?] at hp
  split at hp
  · cases hp
  · split at hp
    · rename_i n hn
      cases hp
      refine { h with permits := fun hd => ?_, line := fun hne => ?_ }
      · have hp := h.permits hd
        rw [hn] at hp
        show n + p.granted.length + (taken + 1) = p.idle.length
        omega
      · have h0 := h.line hne
        rw [hn] at h0
        cases h0
    · cases hp

/-! ## Interpreters

An operation takes something from one side of the equations and adds it to the other.  Here are
those that shift interpreters; the hypotheses say what must be in hand before. -/

theorem discard (h : Balanced born p (slots + 1) taken (i :: hand)) :
    Ensures (p.discard i) fun q => Balanced born q slots taken hand := by
  refine (ensures_true _).bind fun _ _ => ensures_pure ?_
  obtain ⟨htotal, hbounded⟩ := h.lowered_total
  refine { h with total := htotal, bounded := hbounded, numbers := ?_, stems := ?_ }
  · exact h.numbers.of_count fun n => List.count_le_count_cons
  · exact fun x hx => h.stems x (List.mem_cons_of_mem i hx)

theorem discardAll (l : List Interpreter) :
    ∀ {p : Pool}, Balanced born p (slots + l.length) taken (l ++ hand) →
      Ensures (p.discardAll l) fun q => Balanced born q slots taken hand := by
  induction l with
  | nil => exact fun h => ensures_pure h
  | cons i l ih => exact fun h => (Balanced.discard h).bind fun q hq => ih hq

/-- An interpreter goes from the hand to the end of the queue. -/
theorem pushIdle (h : Balanced born p (slots + 1) taken (i :: hand)) (hd : p.drained = false) :
    Balanced born { p with idle := p.idle ++ [i], available := p.available + 1 } slots (taken + 1)
      hand := by
  have hlen : (p.idle ++ [i]).length = p.idle.length + 1 := by
    rw [List.length_append, List.length_singleton]
  refine { h with total := ?_, available := ?_, permits := fun _ => ?_,
                  drained := fun hdr => ?_, numbers := ?_, stems := ?_ }
  · have ht := h.total
    show p.total = (p.idle ++ [i]).length + p.loans.length + p.reserved + slots
    omega
  · show p.available + 1 = (p.idle ++ [i]).length
    rw [hlen, h.available]
  · have hp := h.permits hd
    show p.permits + p.granted.length + (taken + 1) = (p.idle ++ [i]).length
    omega
  · exact absurd (hd.symm.trans hdr) Bool.false_ne_true
  · refine h.numbers.of_count fun n => ?_
    simp only [Pool.numbers, List.map_append, List.map_cons, List.map_nil, List.count_append,
      List.count_cons, List.count_nil, List.cons_append]
    omega
  · intro x hx
    refine h.stems x ?_
    simp only [List.mem_append, List.mem_cons, List.not_mem_nil, or_false] at hx ⊢
    tauto

theorem addIdle (h : Balanced born p (slots + 1) taken (i :: hand)) :
    Ensures (p.addIdle i) fun q => Balanced born q slots taken hand := by
  rw [Pool.addIdle]
  split
  · exact h.discard
  · rename_i hc
    have hd : p.drained = false := by
      cases hdr : p.drained with
      | false => rfl
      | true => exact absurd (h.drained hdr).1 hc
    exact ensures_pure (h.pushIdle hd).addPermit

/-- Interpreters go from the queue to the hand.  The permits have to agree with those that stay, or
the pool has to be a drained one. -/
theorem unqueue (h : Balanced born p slots taken hand) {out kept : List Interpreter}
    (hperm : (out ++ kept).Perm p.idle) {permits taken' : Nat} {drained : Bool}
    (hle : permits ≤ p.permits)
    (hp : drained = false → permits + p.granted.length + taken' = kept.length)
    (hd : drained = true → p.closed = true ∧ kept = []) :
    Balanced born
      { p with idle := kept, available := lowered p.available out.length, permits, drained }
      (slots + out.length) taken' (out ++ hand) := by
  have hlen := hperm.length_eq
  rw [List.length_append] at hlen
  refine { h with total := ?_, available := ?_, permits := hp, drained := hd,
                  line := fun hne => ?_, numbers := ?_, stems := ?_ }
  · have ht := h.total
    show p.total = kept.length + p.loans.length + p.reserved + (slots + out.length)
    omega
  · have ha := h.available
    show lowered p.available out.length = kept.length
    rw [lowered_of_le (by omega)]
    omega
  · exact Nat.le_zero.1 (h.line hne ▸ hle)
  · refine h.numbers.of_count fun n => ?_
    have hc := (hperm.map (·.id)).count_eq n
    simp only [List.map_append, List.count_append] at hc
    simp only [Pool.numbers, List.map_append, List.count_append]
    omega
  · intro x hx
    refine h.stems x ?_
    have hm := hperm.mem_iff (a := x)
    simp only [List.mem_append] at hx hm ⊢
    tauto

/-- An interpreter is taken out of the queue against a permit that was taken. -/
theorem takeIdle? (h : Balanced born p slots (taken + 1) hand) (ht : p.takeIdle? = some (i, q)) :
    Balanced born q (slots + 1) taken (i :: hand) := by
  rw [Pool.takeIdle?] at ht
  split at ht
  · cases ht
  · rename_i j hj
    obtain ⟨rfl, rfl⟩ := Prod.mk.inj (Option.some.inj ht)
    obtain ⟨hlt, hget⟩ := List.getElem?_eq_some_iff.1 hj
    have hperm : ([j] ++ p.idle.eraseIdx p.nextPlace).Perm p.idle := by
      rw [← hget]
      exact List.getElem_cons_eraseIdx_perm hlt
    have hlen : (p.idle.eraseIdx p.nextPlace).length + 1 = p.idle.length := by
      rw [← hperm.length_eq, List.length_append, List.length_singleton, Nat.add_comm]
    refine h.unqueue hperm (Nat.le_refl _) (fun hd => ?_) fun hd => ?_
    · have hp := h.permits hd
      omega
    · have he := (h.drained hd).2
      rw [he] at hlt
      exact absurd hlt (Nat.not_lt_zero _)

/-- A permit that was taken has an interpreter to go with it, except in a drained pool. -/
theorem of_idle_eq_nil (h : Balanced born p slots (taken + 1) hand) (he : p.idle = []) :
    Balanced born p slots taken hand ∧ p.closed = true := by
  cases hd : p.drained with
  | true =>
    refine ⟨{ h with permits := fun hf => ?_ }, (h.drained hd).1⟩
    exact absurd (hf.symm.trans hd) Bool.false_ne_true
  | false =>
    have hp := h.permits hd
    rw [he, List.length_nil] at hp
    omega

/-- An interpreter is lent out. -/
theorem lend (h : Balanced born p (slots + 1) taken (i :: hand)) (now : Nat) :
    Balanced born (p.lend i now) slots taken hand := by
  have hnot : i.id ∉ p.loans.map (·.id) := fun hi =>
    (List.nodup_cons.1 h.numbers.nodup).1
      (List.mem_append_right _ (List.mem_append_left _ (List.mem_append_right _ hi)))
  have hself : p.borrowed.filter (fun entry => entry.1 != i.id) = p.borrowed := by
    refine List.filter_eq_self.2 fun entry he => bne_iff_ne.2 fun hid => hnot ?_
    rw [← hid]
    exact h.borrowed.mem_iff.1 (List.mem_map_of_mem he)
  have hlen : (p.loans ++ [i.lent]).length = p.loans.length + 1 := by
    rw [List.length_append, List.length_singleton]
  refine { h with total := ?_, inUse := ?_, borrowed := ?_, numbers := ?_, stems := ?_ }
  · have ht := h.total
    show p.total = p.idle.length + (p.loans ++ [i.lent]).length + p.reserved + slots
    omega
  · show p.inUse + 1 = (p.loans ++ [i.lent]).length
    rw [hlen, h.inUse]
  · show (((i.id, now) :: p.borrowed.filter fun entry => entry.1 != i.id).map (·.1)).Perm
      ((p.loans ++ [i.lent]).map (·.id))
    rw [hself, List.map_cons, List.map_append, List.map_singleton, Interpreter.lent_id]
    exact (h.borrowed.cons i.id).trans (List.perm_append_singleton _ _).symm
  · refine h.numbers.of_count fun n => ?_
    simp only [Pool.lend, Pool.numbers, List.map_append, List.map_cons, List.map_nil,
      List.count_append, List.count_cons, List.count_nil, List.cons_append, Interpreter.lent_id]
    omega
  · intro x hx
    simp only [Pool.lend, List.mem_append, List.mem_cons, List.not_mem_nil, or_false] at hx
    rcases hx with (hx | hx) | hx | rfl
    · exact h.stems x (List.mem_cons_of_mem i
        (List.mem_append_left _ (List.mem_append_left _ hx)))
    · exact h.stems x (List.mem_cons_of_mem i
        (List.mem_append_left _ (List.mem_append_right _ hx)))
    · exact h.stems x (List.mem_cons_of_mem i (List.mem_append_right _ hx))
    · exact h.stems i List.mem_cons_self

/-- A loan ends; the interpreter is in nobody's hands then. -/
theorem endLoan (h : Balanced born p slots taken hand) {id : Nat} (hl : p.loan? id = some i)
    (now : Nat) : Balanced born (p.endLoan id now) (slots + 1) taken (i :: hand) := by
  have hmem : i ∈ p.loans := List.mem_of_find?_eq_some hl
  have hid : i.id = id := by simpa using List.find?_some hl
  subst hid
  have hnodup : (p.loans.map (·.id)).Nodup :=
    (((List.nodup_append.1 h.numbers.nodup).2.1.of_append_left).of_append_right)
  have hperm := perm_cons_filter hnodup hmem
  have hlen := hperm.length_eq
  rw [List.length_cons] at hlen
  refine { h with total := ?_, inUse := ?_, borrowed := ?_, numbers := ?_, stems := ?_ }
  · have ht := h.total
    show p.total =
      p.idle.length + (p.loans.filter fun j => j.id != i.id).length + p.reserved + (slots + 1)
    omega
  · have hu := h.inUse
    show lowered p.inUse 1 = (p.loans.filter fun j => j.id != i.id).length
    rw [lowered_of_le (by omega)]
    omega
  · show ((p.borrowed.filter fun entry => entry.1 != i.id).map (·.1)).Perm
      ((p.loans.filter fun j => j.id != i.id).map (·.id))
    have hf := h.borrowed.filter fun n => n != i.id
    rw [List.filter_map, List.filter_map] at hf
    exact hf
  · refine h.numbers.of_count fun n => ?_
    have hc := (hperm.map (·.id)).count_eq n
    simp only [List.map_cons, List.count_cons] at hc
    simp only [Pool.endLoan, Pool.numbers, List.map_cons, List.count_append, List.count_cons,
      List.cons_append]
    omega
  · intro x hx
    refine h.stems x ?_
    have hm := hperm.mem_iff (a := x)
    simp only [Pool.endLoan, List.mem_append, List.mem_cons, List.cons_append] at hx hm ⊢
    tauto

/-- The interpreters on loan may change, as long as they stay the same interpreters. -/
theorem changeLoans (h : Balanced born p slots taken hand) {l : List Interpreter}
    (hids : l.map (·.id) = p.loans.map (·.id)) (hl : ∀ i ∈ l, Stems born i) :
    Balanced born { p with loans := l } slots taken hand := by
  have hlen : l.length = p.loans.length := by simpa using congrArg List.length hids
  refine { h with total := ?_, inUse := h.inUse.trans hlen.symm, borrowed := ?_, numbers := ?_,
                  stems := ?_ }
  · show p.total = p.idle.length + l.length + p.reserved + slots
    rw [hlen, h.total]
  · show (p.borrowed.map (·.1)).Perm (l.map (·.id))
    rw [hids]
    exact h.borrowed
  · show Numbered p.nextId (hand.map (·.id)
      ++ (p.idle.map (·.id) ++ l.map (·.id) ++ p.creations.map (·.id)))
    rw [hids]
    exact h.numbers
  · intro x hx
    rcases List.mem_append.1 hx with hx | hx
    · exact h.stems x (List.mem_append_left _ hx)
    · exact hl x hx

/-- What a borrower does leaves the books as they are. -/
theorem onLoan (h : Balanced born p slots taken hand) {id : Nat}
    {use : Interpreter → Transition (Unit × Interpreter)} (hu : IsUse use) :
    Ensures (p.onLoan id use) fun r => Balanced born r.2 slots taken hand := by
  rw [Pool.onLoan]
  cases hl : p.loan? id with
  | none => exact ensures_pure h
  | some i =>
    have hmem : i ∈ p.loans := List.mem_of_find?_eq_some hl
    have hid : i.id = id := by simpa using List.find?_some hl
    refine (hu i).bind fun r hr => ensures_pure (h.changeLoans ?_ fun x hx => ?_)
    · obtain ⟨executing, tainted, wasReset, hr⟩ := hr
      rw [List.map_map]
      refine List.map_congr_left fun other _ => ?_
      show Interpreter.id (if other.id == id then r.2 else other) = other.id
      split
      · rename_i he
        rw [hr]
        exact hid.trans (beq_iff_eq.1 he).symm
      · rfl
    · obtain ⟨executing, tainted, wasReset, hr⟩ := hr
      obtain ⟨other, ho, rfl⟩ := List.mem_map.1 hx
      split
      · rw [hr]
        exact h.stems i (List.mem_append_right _ hmem)
      · exact h.stems other (List.mem_append_right _ ho)

/-! ## Creations -/

theorem plan? (h : Balanced born p slots taken hand) {purpose : Purpose}
    (hb : ∀ key, purpose ≠ .request key) (hp : p.plan? purpose = some q) :
    Balanced born q slots taken hand := by
  rw [Pool.plan?] at hp
  split at hp
  · cases hp
  · obtain ⟨r, hr, rfl⟩ := Option.map_eq_some_iff.1 hp
    have hs := h.reserve? hr
    refine { hs with total := ?_, background := ?_ }
    · have ht := hs.total
      simp only [Pool.reserved, List.length_append, List.length_singleton] at ht ⊢
      omega
    · intro x hx
      rcases List.mem_append.1 hx with hx | hx
      · exact hs.background x hx
      · rw [List.mem_singleton.1 hx]
        exact hb

/-- The slot of a creation that was planned is taken over by whoever begins it. -/
theorem unplan (h : Balanced born p slots taken hand) {purpose : Purpose}
    (hp : purpose ∈ p.planned) :
    Balanced born { p with planned := p.planned.erase purpose } (slots + 1) taken hand := by
  refine { h with total := ?_, background := fun x hx => h.background x (List.mem_of_mem_erase hx) }
  have ht := h.total
  have hlen := List.length_erase_of_mem hp
  have hpos := List.length_pos_of_mem hp
  simp only [Pool.reserved] at ht ⊢
  omega

theorem keys_begin (p : Pool) (purpose : Purpose) :
    (p.begin purpose).keys =
      p.keys ++ (Creation.key? { id := p.nextId, purpose := some purpose }).toList := by
  simp only [Pool.begin, Pool.keys, List.filterMap_append, List.append_assoc]
  cases purpose <;> rfl

/-- A creation begins, in a slot that was reserved for it. -/
theorem begin (h : Balanced born p (slots + 1) taken hand) {purpose : Purpose}
    (hk : ∀ key, purpose = .request key → key ∉ p.keys) :
    Balanced born (p.begin purpose) slots taken hand := by
  refine { h with total := ?_, numbers := ?_, keys := ?_, ended := ?_,
                  distinct := h.distinct.mono (Nat.le_succ _), unborn := ?_ }
  · have ht := h.total
    simp only [Pool.begin, Pool.reserved, List.countP_append, List.countP_singleton,
      Option.isSome_some, if_true] at ht ⊢
    omega
  · refine h.numbers.cons_next.of_count fun n => ?_
    simp only [Pool.begin, Pool.numbers, List.map_append, List.map_cons, List.map_nil,
      List.count_append, List.count_cons, List.count_nil]
    omega
  · rw [keys_begin]
    cases purpose with
    | request key =>
      refine nodup_of_count (List.nodup_cons.2 ⟨hk key rfl, h.keys⟩) fun n => ?_
      have hone : [key].count n = if key == n then 1 else 0 := by
        rw [List.count_cons, List.count_nil, Nat.zero_add]
      rw [List.count_append, List.count_cons]
      exact Nat.le_of_eq (congrArg (p.keys.count n + ·) hone)
    | replacement => exact (List.append_nil p.keys).symm ▸ h.keys
    | growth => exact (List.append_nil p.keys).symm ▸ h.keys
  · intro c hc i hi
    rcases List.mem_append.1 hc with hc | hc
    · exact h.ended c hc i hi
    · rw [List.mem_singleton.1 hc] at hi
      cases hi
  · intro c hc hn
    rcases List.mem_append.1 hc with hc | hc
    · exact h.unborn c hc hn
    · rw [List.mem_singleton.1 hc]
      exact fun hb => Nat.lt_irrefl _ (h.distinct.lt _ hb)

/-- The numbers in use without those of a creation. -/
theorem numbered_dropCreation (h : Balanced born p slots taken hand) {c : Creation}
    (hc : c ∈ p.creations) :
    Numbered p.nextId (c.id :: (hand.map (·.id) ++ (p.dropCreation c.id).numbers)) := by
  have hnodup : (p.creations.map (·.id)).Nodup :=
    (List.nodup_append.1 h.numbers.nodup).2.1.of_append_right
  refine h.numbers.of_count fun n => ?_
  have hcount := ((perm_cons_filter hnodup hc).map (·.id)).count_eq n
  simp only [List.map_cons, List.count_cons] at hcount
  simp only [Pool.dropCreation, Pool.numbers, List.count_append, List.count_cons]
  omega

/-- A creation is forgotten.  Its slot, if it has one, is in hand then. -/
theorem dropCreation (h : Balanced born p slots taken hand) {c : Creation}
    (hc : c ∈ p.creations) :
    Balanced born (p.dropCreation c.id) (slots + if c.purpose.isSome then 1 else 0) taken hand := by
  have hnodup : (p.creations.map (·.id)).Nodup :=
    (List.nodup_append.1 h.numbers.nodup).2.1.of_append_right
  have hsub : (p.creations.filter fun d => d.id != c.id).Sublist p.creations :=
    List.filter_sublist
  refine { h with total := ?_, numbers := ?_, keys := ?_, ended := ?_, unborn := ?_ }
  · have ht := h.total
    have hcount := (perm_cons_filter hnodup hc).countP_eq fun d => d.purpose.isSome
    rw [List.countP_cons] at hcount
    simp only [Pool.dropCreation, Pool.reserved] at ht ⊢
    omega
  · exact (h.numbered_dropCreation hc).of_count fun n => List.count_le_count_cons
  · exact h.keys.sublist ((List.Sublist.refl _).append (hsub.filterMap _))
  · exact fun d hd => h.ended d (hsub.subset hd)
  · exact fun d hd => h.unborn d (hsub.subset hd)

/-- The interpreter that a creation was for is taken over. -/
theorem takeMade (h : Balanced born p slots taken hand) {c : Creation} (hc : c ∈ p.creations)
    (ho : c.outcome = some (.ok i)) (hw : c.purpose.isSome) :
    Balanced born (p.dropCreation c.id) (slots + 1) taken (i :: hand) := by
  obtain ⟨hid, hstems⟩ := h.ended c hc i ho
  have hd := h.dropCreation hc
  rw [if_pos hw] at hd
  refine { hd with numbers := ?_, stems := ?_ }
  · rw [List.map_cons, hid]
    exact h.numbered_dropCreation hc
  · intro x hx
    rcases List.mem_cons.1 hx with rfl | hx
    · exact hstems
    · exact hd.stems x hx

/-- The creations may change, as long as they keep their numbers; `freed` of them give their slots
up, and interpreters may have come into being. -/
theorem changeCreations (h : Balanced born p slots taken hand) (l : List Creation) (freed : Nat)
    {born' : List Interpreter} (hids : l.map (·.id) = p.creations.map (·.id))
    (hfreed : (l.countP fun c => c.purpose.isSome) + freed
      = p.creations.countP fun c => c.purpose.isSome)
    (hkeys : ∀ n, (l.filterMap Creation.key?).count n
      ≤ (p.creations.filterMap Creation.key?).count n)
    (hborn : ∀ i, Stems born i → Stems born' i) (hdistinct : Numbered p.nextId (born'.map (·.id)))
    (hended : ∀ c ∈ l, ∀ i, c.outcome = some (.ok i) → i.id = c.id ∧ Stems born' i)
    (hunborn : ∀ c ∈ l, c.outcome = none → c.id ∉ born'.map (·.id)) :
    Balanced born' { p with creations := l } (slots + freed) taken hand := by
  refine { h with total := ?_, numbers := ?_, keys := ?_, ended := hended, unborn := hunborn,
                  stems := fun x hx => hborn x (h.stems x hx), distinct := hdistinct }
  · have ht := h.total
    simp only [Pool.reserved] at ht ⊢
    omega
  · show Numbered p.nextId (hand.map (·.id)
      ++ (p.idle.map (·.id) ++ p.loans.map (·.id) ++ l.map (·.id)))
    rw [hids]
    exact h.numbers
  · refine nodup_of_count h.keys fun n => ?_
    have hle := hkeys n
    simp only [Pool.keys, List.count_append]
    omega

end Balanced

/-! ### Giving a creation up

A request that is given up leaves its creation to nobody, and the creation goes on.  Its slot is
given up at once and not when it ends, so from then on there is no slot for it in the books. -/

/-- A creation after a request was given up. -/
def Creation.without (key : Nat) (c : Creation) : Creation :=
  if Creation.isFor c key then { c with purpose := none } else c

@[simp] theorem Creation.without_id (key : Nat) (c : Creation) : (without key c).id = c.id := by
  rw [without]
  split <;> rfl

@[simp] theorem Creation.without_outcome (key : Nat) (c : Creation) :
    (without key c).outcome = c.outcome := by
  rw [without]
  split <;> rfl

theorem Creation.isFor_iff (c : Creation) (key : Nat) :
    Creation.isFor c key = true ↔ c.purpose = some (.request key) := by
  rw [Creation.isFor, beq_iff_eq]

theorem countP_without (key : Nat) (l : List Creation) :
    ((l.map (Creation.without key)).countP fun c => c.purpose.isSome)
        + l.countP (Creation.isFor · key)
      = l.countP fun c => c.purpose.isSome := by
  induction l with
  | nil => rfl
  | cons c l ih =>
    rw [List.map_cons, List.countP_cons, List.countP_cons, List.countP_cons, Creation.without]
    cases hc : Creation.isFor c key with
    | true =>
      have hp : c.purpose.isSome = true := by
        rw [(Creation.isFor_iff c key).1 hc]
        rfl
      simp only [hp, if_true, Option.isSome_none, Bool.false_eq_true, if_false]
      omega
    | false =>
      simp only [Bool.false_eq_true, if_false]
      omega

theorem count_keys_creations (key : Nat) (l : List Creation) :
    (l.filterMap Creation.key?).count key = l.countP (Creation.isFor · key) := by
  induction l with
  | nil => rfl
  | cons c l ih =>
    rw [List.countP_cons, ← ih]
    cases hp : c.purpose with
    | none => simp [Creation.key?, Creation.isFor, hp]
    | some purpose => cases purpose <;> simp [Creation.key?, Creation.isFor, hp, List.count_cons]

theorem count_keys_without_le (key n : Nat) (l : List Creation) :
    ((l.map (Creation.without key)).filterMap Creation.key?).count n
      ≤ (l.filterMap Creation.key?).count n := by
  rw [count_keys_creations, count_keys_creations, List.countP_map]
  refine List.countP_mono_left fun c _ hc => ?_
  rw [Function.comp_apply, Creation.without] at hc
  split at hc
  · simp [Creation.isFor] at hc
  · exact hc

namespace Balanced

/-- A request that waits for a creation is given up, and the slot of the creation with it. -/
theorem abandon (h : Balanced born p slots taken hand) {key : Nat}
    (hk : p.creations.any (Creation.isFor · key) = true) :
    Balanced born { p.release with creations := p.creations.map (Creation.without key) } slots
      taken hand := by
  have hone : p.creations.countP (Creation.isFor · key) = 1 := by
    refine Nat.le_antisymm ?_ (List.countP_pos_iff.2 (List.any_eq_true.1 hk))
    rw [← count_keys_creations]
    exact List.nodup_iff_count_le_one.1 h.keys.of_append_right key
  refine (h.changeCreations (p.creations.map (Creation.without key)) 1 ?_ ?_ ?_ (fun _ hs => hs)
    h.distinct ?_ ?_).release
  · rw [List.map_map]
    exact List.map_congr_left fun c _ => Creation.without_id key c
  · rw [← hone]
    exact countP_without key p.creations
  · exact fun n => count_keys_without_le key n p.creations
  · intro c hc i hi
    obtain ⟨d, hd, rfl⟩ := List.mem_map.1 hc
    rw [Creation.without_outcome] at hi
    rw [Creation.without_id]
    exact h.ended d hd i hi
  · intro c hc hn
    obtain ⟨d, hd, rfl⟩ := List.mem_map.1 hc
    rw [Creation.without_outcome] at hn
    rw [Creation.without_id]
    exact h.unborn d hd hn

/-- A creation ends.  If it has succeeded, its interpreter has come into being. -/
theorem endCreation (h : Balanced born p slots taken hand) {c : Creation} (hc : c ∈ p.creations)
    (hn : c.outcome = none) {outcome : Except InterpreterError Interpreter}
    (ho : ∀ i, outcome = .ok i → i.id = c.id) :
    Balanced ((Move.endCreation c.id outcome).made?.toList ++ born) (p.endCreation c.id outcome)
      slots taken hand := by
  have hid : c.id ∉ born.map (·.id) := h.unborn c hc hn
  have hlt : c.id < p.nextId :=
    h.numbers.lt _ (List.mem_append_right _ (List.mem_append_right _ (List.mem_map_of_mem hc)))
  -- whichever way the creation ended, nobody else has its number
  have hmade : ∀ n ∈ ((Move.endCreation c.id outcome).made?.toList ++ born).map (·.id),
      n = c.id ∨ n ∈ born.map (·.id) := by
    intro n hm
    cases outcome with
    | error e => exact .inr hm
    | ok i =>
      rcases List.mem_cons.1 hm with rfl | hm
      · exact .inl (ho i rfl)
      · exact .inr hm
  refine h.changeCreations _ 0 ?_ ?_ ?_ ?_ ?_ ?_ ?_
  · rw [List.map_map]
    refine List.map_congr_left fun d _ => ?_
    rw [Function.comp_apply]
    split <;> rfl
  · rw [List.countP_map]
    refine List.countP_congr fun d _ => ?_
    rw [Function.comp_apply]
    split <;> rfl
  · intro n
    rw [List.filterMap_map]
    refine Nat.le_of_eq (congrArg (List.count n) (List.filterMap_congr fun d _ => ?_))
    rw [Function.comp_apply]
    split <;> rfl
  · rintro i ⟨b, hb, hs⟩
    exact ⟨b, List.mem_append_right _ hb, hs⟩
  · cases outcome with
    | error e => exact h.distinct
    | ok i =>
      show Numbered p.nextId (i.id :: born.map (·.id))
      rw [ho i rfl]
      refine ⟨List.nodup_cons.2 ⟨hid, h.distinct.nodup⟩, fun n hm => ?_⟩
      rcases List.mem_cons.1 hm with rfl | hm
      · exact hlt
      · exact h.distinct.lt n hm
  · intro d hd i hi
    obtain ⟨e, he, rfl⟩ := List.mem_map.1 hd
    by_cases heq : (e.id == c.id) = true
    · rw [if_pos heq] at hi ⊢
      obtain rfl : outcome = .ok i := Option.some.inj hi
      exact ⟨(ho i rfl).trans (beq_iff_eq.1 heq).symm, i, List.mem_cons_self, rfl, rfl⟩
    · rw [if_neg heq] at hi ⊢
      obtain ⟨hid, b, hb, hs⟩ := h.ended e he i hi
      exact ⟨hid, b, List.mem_append_right _ hb, hs⟩
  · intro d hd hdn hm
    obtain ⟨e, he, rfl⟩ := List.mem_map.1 hd
    by_cases heq : (e.id == c.id) = true
    · rw [if_pos heq] at hdn
      cases hdn
    · rw [if_neg heq] at hdn hm
      rcases hmade _ hm with he' | hm
      · exact heq (beq_iff_eq.2 he')
      · exact h.unborn e he hdn hm

end Balanced
end Pool
end ScriptPool
