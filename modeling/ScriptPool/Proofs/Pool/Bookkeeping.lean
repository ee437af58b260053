import ScriptPool.Proofs.Pool.Tally

/-!
# The table of loads agrees with the pool

## What is here

* `Diary` — a run of a pool with a history of its loans.  What counts as a loan is read off the
  interpreters on loan before and after every move, and not off the table.
* `Step.tallied` — **one move keeps the table right**, the history being that of the loans that have
  begun and ended.
* `Booked` — what a run preserves besides: interpreters in the making were not lent out.
* `loads_of_diary` — what the table says in every state of every run.
-/

set_option autoImplicit false

namespace ScriptPool
namespace Pool

open Transition LoanEvent

variable {config : PoolConfig} {opened born : List Interpreter} {ms : List Move} {m : Move}
  {d : List LoanEvent} {start p q : Pool} {i : Interpreter}

/-! ## Histories of runs

A history of loans is read off a run by comparing the pool before a move and after it: who is on
loan and was not before has been lent out, and who was and is not any more has come back. -/

/-- When a move happens that lends something out or takes something back. -/
def Move.moment : Move → Nat
  | .request _ now => now
  | .resume _ now => now
  | .collect _ _ now => now
  | .giveBack _ now => now
  | _ => 0

/-- The loans that have begun and ended by a move: those of the interpreters that are on loan now
and were not before, and of those that were on loan before and are not now. -/
def loanEvents (now : Nat) (p q : Pool) : List LoanEvent :=
  (handedOut p q).map (.lent · now) ++ (handedOut q p).map (.back · now)

/-- A run from a pool, with the moves and the history of the loans, the latest first. -/
inductive Diary (start : Pool) : List Move → List LoanEvent → Pool → Prop where
  | refl : Diary start [] [] start
  | step {ms : List Move} {d : List LoanEvent} {p q : Pool} {m : Move} (h : Diary start ms d p)
      (s : Step p m q) : Diary start (m :: ms) (loanEvents m.moment p q ++ d) q

theorem Diary.run (h : Diary start ms d p) (ho : Opened config opened start) :
    Run config opened ms p := by
  induction h with
  | refl => exact .start ho
  | step _ s ih => exact ih.step s

/-- The history of a pool that has just been opened is empty. -/
theorem Opened.diary (_ : Opened config opened p) : Diary p [] [] p := .refl

/-- Every run has a history. -/
theorem Run.exists_diary (h : Run config opened ms p) :
    ∃ start d, Opened config opened start ∧ Diary start ms d p := by
  induction h with
  | start h => exact ⟨_, [], h, h.diary⟩
  | step _ s ih =>
    obtain ⟨start, d, ho, h⟩ := ih
    exact ⟨start, _, ho, h.step s⟩

/-! ## One move

What a move does to the table and what it adds to the history are found independently of each other,
the one operation by operation and the other by looking at the loans.  Then it is shown that they
agree. -/

/-- What a move adds to a history: the beginning of a loan, the end of one that goes on, or nothing.
-/
inductive Adds (d : List LoanEvent) (now : Nat) : List LoanEvent → Prop where
  | nothing : Adds d now []
  | lent (id : Nat) : Adds d now [.lent id now]
  | back {id : Nat} (h : (since? d id).isSome = true) : Adds d now [.back id now]

theorem Progress.adds (r : Progress) (d : List LoanEvent) (now : Nat) :
    Adds d now (Progress.events now r) := by
  cases r with
  | lent id => exact .lent id
  | _ => exact .nothing

/-- What comes of a creation is not in the pool before it is collected. -/
theorem Balanced.not_mem_stock (hb : Balanced born p 0 0 []) {c : Creation} (hc : c ∈ p.creations)
    (ho : c.outcome = some (.ok i)) : i.id ∉ (stock [] p).map (·.id) := by
  have hdisjoint := (List.nodup_append.1 hb.numbered.nodup).2.2
  rw [(hb.ended c hc i ho).1]
  intro hin
  refine hdisjoint c.id ?_ c.id (List.mem_map_of_mem hc) rfl
  simpa only [stock, List.nil_append, List.map_append] using hin

/-- **What one move does to the table.** -/
theorem Move.tallied (hb : Balanced born p 0 0 []) (ha : m.Allowed p) (h : Tallied d p [])
    (hnew : ∀ c ∈ p.creations, timesLent d c.id = 0
      ∧ ∀ i, c.outcome = some (.ok i) → i.useCount = 0) :
    Ensures (m.apply p) fun q => ∃ events, Adds d m.moment events ∧ Tallied (events ++ d) q [] := by
  have hkeep : ∀ {t : Transition Pool}, Ensures t (fun q => Tallied d q []) →
      Ensures t fun q => ∃ events, Adds d m.moment events ∧ Tallied (events ++ d) q [] :=
    fun ht => ht.mono fun q hq => ⟨[], .nothing, hq⟩
  cases m with
  | request key now =>
    exact (h.request key now).bind fun r hr =>
      ensures_pure ⟨_, Progress.adds r.1 d now, hr⟩
  | resume key now =>
    exact (h.resume key now).bind fun r hr =>
      ensures_pure ⟨_, Progress.adds r.1 d now, hr⟩
  | collect c outcome now =>
    obtain ⟨hunlent, hunused⟩ := hnew c ha.1
    refine (h.collect c (fun i hi => ?_) now).bind fun r hr => ensures_pure ⟨_, ?_, hr⟩
    · have ho : c.outcome = some (.ok i) := hi ▸ ha.2
      exact ⟨hb.not_mem_stock ha.1 ho, (hb.ended c ha.1 i ho).1 ▸ hunlent, hunused i ho⟩
    · cases r.1 with
      | none => exact .nothing
      | some served => exact Progress.adds served.2 d now
  | giveBack id now =>
    obtain ⟨i, hi⟩ := exists_loan? ha
    exact (h.giveBack hi now).mono fun q hq => ⟨_, .back ((h.away id).2 ha), hq⟩
  | onLoan id use => exact hkeep (h.onLoan ha.2).snd
  | shrink count => exact hkeep (h.shrink count).snd
  | sweep now => exact hkeep (h.sweep now).snd
  | drain => exact hkeep h.drain
  | giveUp key => exact hkeep (ensures_pure (h.same (.giveUp p key)))
  | grow count => exact hkeep (ensures_pure (h.same (.grow count p)))
  | _ => exact hkeep (ensures_pure (h.of_eq rfl rfl rfl))

/-- A list without repetitions that has one member is that member. -/
theorem eq_singleton_of_nodup {l : List Nat} {n : Nat} (hl : l.Nodup) (h : ∀ k, k ∈ l ↔ k = n) :
    l = [n] := by
  have hperm : l.Perm [n] := (List.perm_ext_iff_of_nodup hl (List.nodup_singleton n)).2 fun k =>
    (h k).trans List.mem_singleton.symm
  exact List.perm_singleton.1 hperm

/-- The table and the history agree on what was handed out. -/
theorem Tallied.mem_handedOut_iff {d' : List LoanEvent} (hp : Tallied d p [])
    (hq : Tallied d' q []) (id : Nat) : id ∈ handedOut p q
      ↔ (since? d' id).isSome = true ∧ (since? d id).isSome = false := by
  rw [mem_handedOut, ← hp.away, ← hq.away, Bool.not_eq_true]

theorem Tallied.nodup_handedOut (h : Tallied d q []) (p : Pool) : (handedOut p q).Nodup :=
  h.nodup_loans.sublist List.filter_sublist

/-- If the interpreters on loan are the same in two histories, then nothing was handed out. -/
theorem Tallied.handedOut_eq_nil {d' : List LoanEvent} (hp : Tallied d p []) (hq : Tallied d' q [])
    (h : ∀ id, (since? d' id).isSome = true → (since? d id).isSome = true) :
    handedOut p q = [] := by
  refine List.eq_nil_iff_forall_not_mem.2 fun id hid => ?_
  obtain ⟨hin, hnot⟩ := (hp.mem_handedOut_iff hq id).1 hid
  exact absurd (hnot.symm.trans (h id hin)) Bool.false_ne_true

theorem Tallied.handedOut_eq_singleton {d' : List LoanEvent} (hp : Tallied d p [])
    (hq : Tallied d' q []) {id : Nat}
    (hid : (since? d' id).isSome = true ∧ (since? d id).isSome = false)
    (h : ∀ k, k ≠ id → since? d' k = since? d k) : handedOut p q = [id] := by
  refine eq_singleton_of_nodup (hq.nodup_handedOut p) fun k => ?_
  rw [hp.mem_handedOut_iff hq]
  by_cases hk : k = id
  · rw [hk]
    exact iff_of_true hid rfl
  · rw [h k hk]
    exact iff_of_false (fun hb => absurd (hb.2.symm.trans hb.1) Bool.false_ne_true) hk

/-- **The loans that have begun and ended by a move** are those by which the table has changed. -/
theorem Tallied.loanEvents_eq {now : Nat} {events : List LoanEvent} (hp : Tallied d p [])
    (ha : Adds d now events) (hq : Tallied (events ++ d) q []) : loanEvents now p q = events := by
  rw [loanEvents]
  cases ha with
  | nothing =>
    rw [hp.handedOut_eq_nil hq fun _ h => h, hq.handedOut_eq_nil hp fun _ h => h]
    rfl
  | lent id =>
    have hoff : since? d id = none := by
      have hbefore := hp.consistent id
      have hafter := hq.consistent id
      rw [List.singleton_append, timesLent_lent, since?_lent, pastLoans, Option.toList_some,
        List.length_singleton] at hafter
      exact Option.toList_eq_nil_iff.1 (List.eq_nil_of_length_eq_zero (by omega))
    have hsame : ∀ k, k ≠ id → since? (.lent id now :: d) k = since? d k := fun k hk =>
      since?_lent_of_ne (Ne.symm hk)
    have hout : handedOut p q = [id] := hp.handedOut_eq_singleton hq
      ⟨by rw [List.singleton_append, since?_lent]; rfl, by rw [hoff]; rfl⟩ hsame
    have hin : handedOut q p = [] := hq.handedOut_eq_nil hp fun k h => by
      rw [List.singleton_append]
      by_cases hk : k = id
      · rw [hk, since?_lent]
        rfl
      · rwa [hsame k hk]
    rw [hout, hin]
    rfl
  | @back id hon =>
    have hsame : ∀ k, k ≠ id → since? (.back id now :: d) k = since? d k := fun k hk =>
      since?_back_of_ne (Ne.symm hk)
    have hout : handedOut p q = [] := hp.handedOut_eq_nil hq fun k h => by
      rw [List.singleton_append] at h
      by_cases hk : k = id
      · rwa [hk]
      · rwa [hsame k hk] at h
    have hin : handedOut q p = [id] := hq.handedOut_eq_singleton hp
      ⟨hon, by rw [List.singleton_append, since?_back]; rfl⟩ fun k hk => (hsame k hk).symm
    rw [hout, hin]
    rfl

/-- **One move keeps the table right.** -/
theorem Step.tallied (hb : Balanced born p 0 0 []) (h : Tallied d p [])
    (hnew : ∀ c ∈ p.creations, timesLent d c.id = 0
      ∧ ∀ i, c.outcome = some (.ok i) → i.useCount = 0) (s : Step p m q) :
    Tallied (loanEvents m.moment p q ++ d) q [] := by
  obtain ⟨ha, w, w', hrun⟩ := s
  obtain ⟨events, hadds, hq⟩ := (Move.tallied hb ha h hnew).of_run hrun
  rwa [h.loanEvents_eq hadds hq]

/-! ## Runs -/

/-- While a pool is being opened, nothing is lent out. -/
theorem Opening.tallied (h : Opening config opened p) :
    (∀ i ∈ opened, i.useCount = 0) → Tallied [] p [] := by
  induction h with
  | empty h =>
    intro _
    obtain ⟨memory, rfl⟩ := ofConfig_eq_ok h
    exact ⟨fun _ => rfl, fun i hi => absurd hi List.not_mem_nil, List.nodup_nil, List.nodup_nil,
      fun _ => rfl, fun _ => iff_of_false Bool.false_ne_true List.not_mem_nil⟩
  | @more made p q p' i now w w' ho _ slot number r ih =>
    intro hunused
    have hp : Tallied [] p [] := ih fun j hj => hunused j (List.mem_cons_of_mem i hj)
    have hbegun : Tallied [] (q.begin .replacement) [] :=
      (hp.same (.reserve? slot)).of_eq rfl rfl rfl
    have hbalanced := ho.balanced.reserve? slot
    have hnot : i.id ∉ (stock [] (q.begin .replacement)).map (·.id) := by
      intro hin
      simp only [stock, List.nil_append, List.map_append] at hin
      have hlt := hbalanced.numbers.lt i.id
        (List.mem_append_right _ (List.mem_append_left _ hin))
      exact Nat.lt_irrefl _ (number ▸ hlt)
    exact (hbegun.collect _ (fun j hj => by
      obtain rfl := Except.ok.inj hj
      exact ⟨hnot, rfl, hunused i List.mem_cons_self⟩) now).of_run r

/-- How often an interpreter was lent out after a move. -/
theorem timesLent_loanEvents (hq : (q.loans.map (·.id)).Nodup) (now id : Nat) :
    timesLent (loanEvents now p q ++ d) id
      = (if id ∈ handedOut p q then 1 else 0) + timesLent d id := by
  have hback : ∀ l : List Nat, timesLent (l.map (.back · now) ++ d) id = timesLent d id := by
    intro l
    induction l with
    | nil => rfl
    | cons n l ih => exact ih
  have hlent : ∀ (l : List Nat) (e : List LoanEvent),
      timesLent (l.map (.lent · now) ++ e) id = l.count id + timesLent e id := by
    intro l e
    induction l with
    | nil => exact (Nat.zero_add _).symm
    | cons n l ih =>
      rw [List.map_cons, List.cons_append, timesLent, ih, List.count_cons]
      simp only [beq_iff_eq]
      omega
  rw [loanEvents, List.append_assoc, hlent, hback, count_handedOut hq]

/-- The table is right, and whatever is in the making was not lent out. -/
structure Booked (opened : List Interpreter) (ms : List Move) (d : List LoanEvent) (p : Pool) :
    Prop where
  tallied : Tallied d p []
  unlent : ∀ c ∈ p.creations, timesLent d c.id = 0
  /-- What was lent out has a number that was given out. -/
  lt : ∀ id, timesLent d id ≠ 0 → id < p.nextId
  ended : ∀ c ∈ p.creations, ∀ i, c.outcome = some (.ok i) → i ∈ madeIn opened ms

theorem Booked.step (h : Booked opened ms d p) (hb : Balanced born p 0 0 []) (s : Step p m q)
    (hunused : ∀ i ∈ madeIn opened ms, i.useCount = 0) :
    Booked opened (m :: ms) (loanEvents m.moment p q ++ d) q := by
  have hbq := s.balanced hb
  have htallied := Step.tallied hb h.tallied
    (fun c hc => ⟨h.unlent c hc, fun i hi => hunused i (h.ended c hc i hi)⟩) s
  have hcount := timesLent_loanEvents (p := p) (d := d) htallied.nodup_loans m.moment
  obtain ⟨ha, w, w', hrun⟩ := s
  obtain ⟨hnext, hcreations⟩ := Move.mem_creations ha hrun
  refine ⟨htallied, fun c hc => ?_, fun id hid => ?_, fun c hc i hi => ?_⟩
  · have hout : c.id ∉ handedOut p q := fun hout => by
      obtain ⟨j, hj, hid⟩ := exists_loan_of_handedOut hout
      exact hbq.creation_ne_loan hc hj hid.symm
    rw [hcount, if_neg hout, Nat.zero_add]
    cases hcreations c hc with
    | same hc' hid _ => exact hid ▸ h.unlent _ hc'
    | ended hc' hid _ _ => exact hid ▸ h.unlent _ hc'
    | begun hid _ =>
      by_contra hne
      exact Nat.lt_irrefl _ (hid ▸ h.lt c.id hne)
  · rw [hcount] at hid
    by_cases hout : id ∈ handedOut p q
    · obtain ⟨j, hj, rfl⟩ := exists_loan_of_handedOut hout
      exact hbq.loan_lt hj
    · rw [if_neg hout, Nat.zero_add] at hid
      exact Nat.lt_of_lt_of_le (h.lt id hid) hnext
  · cases hcreations c hc with
    | same hc' _ houtcome => exact mem_madeIn_cons (h.ended _ hc' i (houtcome ▸ hi))
    | ended _ _ is houtcome =>
      obtain rfl := Option.some.inj (houtcome.symm.trans hi)
      rw [is]
      exact List.mem_cons_self
    | begun _ houtcome =>
      rw [houtcome] at hi
      cases hi

/-- The table is right at any moment of any run. -/
theorem Diary.booked (h : Diary start ms d p) (ho : Opened config opened start) :
    (∀ i ∈ madeIn opened ms, i.useCount = 0) → Booked opened ms d p := by
  induction h with
  | refl =>
    intro hunused
    have hnone := ho.1.inside.2.2
    exact ⟨ho.1.tallied hunused, fun _ _ => rfl, fun _ h => absurd rfl h,
      fun c hc => absurd (hnone ▸ hc) List.not_mem_nil⟩
  | step h s ih =>
    intro hunused
    have hunused' := fun i hi => hunused i (mem_madeIn_cons hi)
    exact (ih hunused').step (h.run ho).balanced s hunused'

/-! ## What the table says -/

/-- What the entry for an interpreter says, after the loans of a history. -/
structure Describes (info : LoadInfo) (d : List LoanEvent) (p : Pool) (i : Interpreter) : Prop where
  /-- The entry and the interpreter count the same loans. -/
  uses : info.count = i.useCount
  count : info.count = timesLent d i.id
  /-- A beginning is noted exactly while the interpreter is on loan. -/
  running : info.startedAt.isSome = true ↔ i ∈ p.loans
  started : info.startedAt = since? d i.id
  /-- The total is the time of the loans that have ended. -/
  total : info.total.nanos = timeSpent (pastLoans d i.id)
  /-- Once the interpreter is back, the average is over all its loans, but the divisor has 32 bits.
  -/
  average : i ∈ p.idle →
    info.average.nanos = info.total.nanos / min info.count LoadInfo.divisorBound
  /-- So it is the quotient of the total and the count for up to `2 ^ 32 - 1` loans. -/
  quotient : i ∈ p.idle → info.count ≤ LoadInfo.divisorBound →
    info.average.nanos = info.total.nanos / info.count

theorem Tallied.describes (h : Tallied d p []) (hi : i ∈ p.idle ++ p.loans) {info : LoadInfo}
    (hinfo : p.loads.get? i.id = some info) : Describes info d p i := by
  have hmem : i ∈ stock [] p := hi
  have hentry := h.entries i.id
  rw [hinfo, if_pos (List.mem_map_of_mem hmem), due] at hentry
  split at hentry
  · cases hentry
  · obtain rfl := Option.some.inj hentry
    have hids := h.distinct
    simp only [stock, List.nil_append, List.map_append] at hids
    have hapart := (List.nodup_append.1 hids).2.2
    have hloan : (since? d i.id).isSome = true ↔ i ∈ p.loans := by
      refine (h.away i.id).trans ⟨fun hin => ?_, List.mem_map_of_mem⟩
      exact (List.mem_append.1 hi).resolve_left fun hidle =>
        hapart _ (List.mem_map_of_mem hidle) _ hin rfl
    have haverage (hidle : i ∈ p.idle) : (account d i.id).average.nanos
        = (account d i.id).total.nanos / min (account d i.id).count LoadInfo.divisorBound := by
      have hback : since? d i.id = none := by
        cases hs : since? d i.id with
        | none => rfl
        | some began =>
          have hin := (h.away i.id).1 (by rw [hs]; rfl)
          exact absurd rfl (hapart _ (List.mem_map_of_mem hidle) _ hin)
      have hcount : timesLent d i.id = (pastLoans d i.id).length := by
        rw [h.consistent i.id, hback]
        rfl
      simp only [account, hcount]
    refine ⟨(h.uses i hmem).symm, rfl, hloan, rfl, rfl, haverage, fun hidle hle => ?_⟩
    rw [haverage hidle, Nat.min_eq_left hle]

/-- **The table of loads agrees with the pool** in every state of every run, if interpreters are
unused when they are made.  It has an entry, and only one, for exactly those interpreters in the
pool that were lent out at least once; nothing is left of those that the pool let go of.  The entry
counts the loans as the interpreter does, and says since when the present one goes on, if one does.
Its total is the time of the loans that have ended, and its average, once the interpreter is back,
the total divided by the count, up to `LoadInfo.divisorBound` loans.  The divisor is a number of 32
bits and does not grow any more from there on. -/
theorem loads_of_diary (ho : Opened config opened start) (h : Diary start ms d p)
    (hunused : ∀ i ∈ madeIn opened ms, i.useCount = 0) :
    (∀ id, (p.loads.get? id).isSome = true
      ↔ id ∈ (p.idle ++ p.loans).map (·.id) ∧ 0 < timesLent d id)
    ∧ (p.loads.map (·.1)).Nodup
    ∧ (∀ i ∈ p.idle ++ p.loans, i.useCount = timesLent d i.id)
    ∧ ∀ i ∈ p.idle ++ p.loans, ∀ info, p.loads.get? i.id = some info → Describes info d p i := by
  have htallied := (h.booked ho hunused).tallied
  refine ⟨fun id => ?_, htallied.single, htallied.uses, fun i hi info => htallied.describes hi⟩
  rw [htallied.entries id, due, Nat.pos_iff_ne_zero]
  show _ ↔ id ∈ (stock [] p).map (·.id) ∧ _
  split
  · rename_i hin
    split
    · rename_i h0
      exact iff_of_false Bool.false_ne_true fun hb => hb.2 h0
    · rename_i hne
      exact iff_of_true rfl ⟨hin, hne⟩
  · rename_i hout
    exact iff_of_false Bool.false_ne_true fun hb => hout hb.1

/-- An interpreter is lent out from the fifth to the ninth nanosecond, and again from the twelfth
on. -/
theorem loads_of_diary_again : ∃ start ms d p, Opened twice [] start ∧ Diary start ms d p
    ∧ d = [.lent 1 12, .back 1 9, .lent 1 5]
    ∧ ∃ i info, p.loans = [i] ∧ p.loads.get? 1 = some info ∧ info.count = 2
      ∧ i.useCount = 2 ∧ info.startedAt = some 12 ∧ info.total.nanos = 4 := by
  have ho : Opened twice [] _ := ⟨.empty rfl, Nat.zero_le _⟩
  have h₁ := ho.diary.step (m := .request 7 3) ⟨List.not_mem_nil, default, _, rfl⟩
  have h₂ := h₁.step (m := .endCreation 1 (.ok firstMade))
    ⟨⟨⟨_, List.mem_cons_self, rfl, rfl⟩, fun i hi => by cases hi; rfl⟩, default, _, rfl⟩
  have h₃ := h₂.step (m := .collect
    { id := 1, purpose := some (.request 7), outcome := some (.ok firstMade) } (.ok firstMade) 5)
    ⟨⟨List.mem_cons_self, rfl⟩, default, _, rfl⟩
  have h₄ := h₃.step (m := .giveBack 1 9) ⟨List.mem_cons_self, default, _, rfl⟩
  have h₅ := h₄.step (m := .request 8 12) ⟨List.not_mem_nil, default, _, rfl⟩
  obtain ⟨-, -, -, hentries⟩ := loads_of_diary ho h₅ fun i hi => by
    obtain rfl := List.mem_singleton.1 hi
    rfl
  have hentry := hentries _ (List.mem_append_right _ List.mem_cons_self) _ rfl
  exact ⟨_, _, _, _, ho, h₅, rfl, _, _, rfl, rfl, hentry.count, rfl, hentry.started, hentry.total⟩

end Pool
end ScriptPool
