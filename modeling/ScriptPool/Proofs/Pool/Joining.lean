import ScriptPool.Proofs.Pool.Bookkeeping
import ScriptPool.Proofs.Pool.Conservation

/-!
# Interpreters that join a pool

An interpreter joins a pool when somebody takes over what came of its creation, and this is when it
is counted.  A creation that nobody wants any more brings nothing.

## What is here

* `Move.counts` — what a move counts as made and as warmed up.
* `Known` — as many interpreters as were counted have joined, and whatever is in the pool, or was
  ever lent out, is one of them.
* `Known.all_here` — as long as nothing was discarded, they are all in the pool.
-/

set_option autoImplicit false

namespace ScriptPool
namespace Pool

open Transition LoanEvent

variable {config : PoolConfig} {opened born : List Interpreter} {ms : List Move} {m : Move}
  {d : List LoanEvent} {start p q r : Pool} {i : Interpreter}

/-! ## What is counted

Interpreters are counted as made by those who take them over, and as warmed up by one move of its
own; nothing else touches the two numbers, which are part of the standing of a pool. -/

/-- How many interpreters a move counts as warmed up. -/
def Move.notes : Move → Nat
  | .notePrewarmed => 1
  | _ => 0

/-- **What a move counts.** -/
theorem Move.counts (p : Pool) (m : Move) : Ensures (m.apply p) fun q =>
    q.counters.created = p.counters.created + m.joins?.toList.length
      ∧ q.counters.prewarmed = p.counters.prewarmed + m.notes := by
  refine (Move.standing p m).mono fun q hq => ?_
  have hcreated : q.counters.created = (m.next p.standing).created := congrArg Standing.created hq
  have hprewarmed : q.counters.prewarmed = (m.next p.standing).prewarmed :=
    congrArg Standing.prewarmed hq
  rw [hcreated, hprewarmed]
  cases m <;> exact ⟨rfl, rfl⟩

/-! ## Who has joined -/

/-- Whatever is in a pool after a move was there before, or has joined by the move. -/
theorem Move.mem_stock {w w' : World} (ha : m.Allowed p) (hrun : (m.apply p).run w = (q, w'))
    (hi : i ∈ q.idle ++ q.loans) :
    i.id ∈ (p.idle ++ p.loans).map (·.id) ∨ m.joins? = some i.id := by
  have hstay : ∀ {j : Interpreter}, j ∈ p.idle ++ p.loans → j.id = i.id →
      i.id ∈ (p.idle ++ p.loans).map (·.id) := fun hj hid => List.mem_map.2 ⟨_, hj, hid⟩
  have hmade : ∀ {c : Creation} {j : Interpreter} {now : Nat}, m = .collect c (.ok j) now →
      j.id = i.id → i.id ∈ (p.idle ++ p.loans).map (·.id) ∨ m.joins? = some i.id := by
    rintro c j now rfl hid
    cases hp : c.purpose with
    | some purpose =>
      exact .inr (Creation.brings?_eq_some.2 ⟨by rw [hp]; rfl, j, rfl, hid⟩)
    | none =>
      -- what nobody wants does not get into the pool
      have heffect : Collected c (.ok j) p q := Move.effect ha hrun
      rcases heffect with ⟨-, h⟩ | ⟨-, hbrings, -⟩ | ⟨hwanted, -, -⟩
      · refine .inl (List.mem_map_of_mem (List.mem_append.2 ?_))
        exact (List.mem_append.1 hi).imp h.idle_of_nil (h.loans_of_nil ▸ ·)
      · rw [Creation.brings?.eq_def, hp] at hbrings
        cases hbrings
      · rw [hp] at hwanted
        cases hwanted
  rcases List.mem_append.1 hi with hidle | hloan
  · rcases Move.mem_idle ha hrun hidle with hidle | hqueued
    · exact .inl (hstay (List.mem_append_left _ hidle) rfl)
    · cases hqueued with
      | made mem ok => exact hmade rfl rfl
      | back loan fresh untainted =>
        exact .inl (hstay (List.mem_append_right _ (loan?_eq_some loan).1) rfl)
  · rcases Move.mem_loans ha hrun hloan with hloan | hlent | ⟨id, use, j, rfl, hj, rfl⟩
    · exact .inl (hstay (List.mem_append_right _ hloan) rfl)
    · cases hlent with
      | idle mem resting => exact .inl (hstay (List.mem_append_left _ mem) rfl)
      | made mem ok => exact hmade rfl rfl
    · obtain ⟨executing, tainted, wasReset, huse⟩ := ha.2 j w
      refine .inl (hstay (List.mem_append_right _ (loan?_eq_some hj).1) ?_)
      rw [huse]

/-- As many interpreters as are counted as made have joined the pool, and those in the pool, and all
that were ever lent out, are among them. -/
structure Known (d : List LoanEvent) (p : Pool) (known : List Nat) : Prop where
  nodup : known.Nodup
  length : known.length = p.counters.created
  here : ∀ i ∈ p.idle ++ p.loans, i.id ∈ known
  lent : ∀ id, timesLent d id ≠ 0 → id ∈ known
  /-- What is in the making has not joined yet. -/
  unborn : ∀ c ∈ p.creations, c.id ∉ known
  lt : ∀ id ∈ known, id < p.nextId

theorem Known.step {known : List Nat} (h : Known d p known) (hb : Balanced born p 0 0 [])
    (s : Step p m q) : Known (loanEvents m.moment p q ++ d) q (m.joins?.toList ++ known) := by
  have hbq := s.balanced hb
  obtain ⟨ha, w, w', hrun⟩ := s
  obtain ⟨hnext, hcreations⟩ := Move.mem_creations ha hrun
  obtain ⟨hcreated, -⟩ := (Move.counts p m).of_run hrun
  -- whoever joins has the number of a creation that is over then
  have hjoins : ∀ id ∈ m.joins?, ∃ c ∈ p.creations, c.id = id
      ∧ ∀ e ∈ q.creations, e.id ≠ id := by
    intro id hid
    cases m with
    | collect c outcome now =>
      obtain ⟨-, j, rfl, rfl⟩ := Creation.brings?_eq_some.1 hid
      refine ⟨c, ha.1, (hb.ended c ha.1 j ha.2).1.symm, fun e he heid => ?_⟩
      have heffect : Collected c (.ok j) p q := Move.effect ha hrun
      have hdrop : e ∈ (p.dropCreation c.id).creations := by
        rcases heffect with ⟨-, h⟩ | ⟨-, -, h⟩ | ⟨-, -, h⟩ <;> exact h.creations ▸ he
      have hne := bne_iff_ne.1 (List.mem_filter.1 hdrop).2
      exact hne (heid.trans (hb.ended c ha.1 j ha.2).1)
    | _ => cases hid
  have hmem : ∀ i ∈ q.idle ++ q.loans, i.id ∈ m.joins?.toList ++ known := by
    intro i hi
    rcases Move.mem_stock ha hrun hi with hin | hin
    · obtain ⟨j, hj, hid⟩ := List.mem_map.1 hin
      exact List.mem_append_right _ (hid ▸ h.here j hj)
    · exact List.mem_append_left _ (Option.mem_toList.2 hin)
  refine ⟨?_, ?_, hmem, fun id hid => ?_, fun c hc hin => ?_, fun id hid => ?_⟩
  · refine List.nodup_append.2 ⟨by cases m.joins? <;> simp, h.nodup, fun a ha' b hb' hab => ?_⟩
    obtain ⟨c, hc, rfl, -⟩ := hjoins a (Option.mem_toList.1 ha')
    exact h.unborn c hc (hab ▸ hb')
  · rw [List.length_append, h.length, hcreated, Nat.add_comm]
  · rw [timesLent_loanEvents hbq.nodup_loans] at hid
    by_cases hout : id ∈ handedOut p q
    · obtain ⟨j, hj, rfl⟩ := exists_loan_of_handedOut hout
      exact hmem j (List.mem_append_right _ hj)
    · rw [if_neg hout, Nat.zero_add] at hid
      exact List.mem_append_right _ (h.lent id hid)
  · rcases List.mem_append.1 hin with hin | hin
    · obtain ⟨-, -, -, hnone⟩ := hjoins c.id (Option.mem_toList.1 hin)
      exact hnone c hc rfl
    · cases hcreations c hc with
      | same hc' hid _ => exact h.unborn _ hc' (hid ▸ hin)
      | ended hc' hid _ _ => exact h.unborn _ hc' (hid ▸ hin)
      | begun hid _ => exact Nat.lt_irrefl _ (hid ▸ h.lt c.id hin)
  · rcases List.mem_append.1 hid with hid | hid
    · obtain ⟨c, hc, rfl, -⟩ := hjoins id (Option.mem_toList.1 hid)
      have hlt := hb.numbered.lt c.id (List.mem_append_right _ (List.mem_map_of_mem hc))
      exact Nat.lt_of_lt_of_le hlt hnext
    · exact Nat.lt_of_lt_of_le (h.lt id hid) hnext

/-- The interpreters that a pool is opened with have joined it. -/
theorem Opening.known (h : Opening config opened p) : Known [] p (opened.map (·.id)) := by
  have hb := h.balanced
  obtain ⟨hidle, hloans, hcreations⟩ := h.inside
  have hcreated : p.counters.created = opened.length := congrArg Standing.created h.standing
  refine ⟨hb.distinct.nodup, by rw [List.length_map, hcreated], fun i hi => ?_,
    fun id hid => absurd rfl hid, fun c hc => absurd (hcreations ▸ hc) List.not_mem_nil,
    hb.distinct.lt⟩
  rw [hloans, List.append_nil] at hi
  exact List.mem_map_of_mem (hidle hi)

/-- Whoever is in a pool at any moment of any run has joined it. -/
theorem Diary.exists_known (h : Diary start ms d p) (ho : Opened config opened start) :
    ∃ known, Known d p known := by
  induction h with
  | refl => exact ⟨_, ho.1.known⟩
  | step h s ih =>
    obtain ⟨known, hk⟩ := ih
    exact ⟨_, hk.step (h.run ho).balanced s⟩

/-- **As long as nothing was discarded**, all that have joined a pool are there. -/
theorem Known.all_here {known : List Nat} (h : Known d p known) (hb : Balanced born p 0 0 [])
    (hall : p.counters.created = p.idle.length + p.loans.length) {id : Nat} (hid : id ∈ known) :
    id ∈ (p.idle ++ p.loans).map (·.id) := by
  have hnodup : ((p.idle ++ p.loans).map (·.id)).Nodup := hb.accounts.distinct
  have hsub : (p.idle ++ p.loans).map (·.id) ⊆ known := by
    intro n hn
    obtain ⟨i, hi, rfl⟩ := List.mem_map.1 hn
    exact h.here i hi
  have hlen : known.length = ((p.idle ++ p.loans).map (·.id)).length := by
    rw [h.length, hall, List.length_map, List.length_append]
  exact ((List.subperm_of_subset hnodup hsub).perm_of_length_le
    (Nat.le_of_eq hlen)).mem_iff.2 hid

end Pool
end ScriptPool
