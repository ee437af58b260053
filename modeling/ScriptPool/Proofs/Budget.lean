import ScriptPool.Budget

/-!
# The law of budgets

A budget is armed when an execution begins, charged while it runs and disarmed when it is over, and
nothing keeps these events from coming in any order.  What a charge reports depends on the history
only through when the budget was armed last and how often it was charged since, so every execution
has all of it, whatever was run before.

A count is a natural number here, so it never wraps around.  A counter of 64 bits does, after `2 ^
64` instructions of one execution, and no execution lasts so long; up to there the two agree, which
is the last part of the law.

## What is here

* `Budget.charge_of_disarmed`, `Budget.charge_of_armed` — what one charge does.
* `Budget.Event`, `Budget.after` — what can happen to a budget, and what has become of it.
* `Budget.arm_after` — **arming forgets the history.**
* `History.isArmed`, `History.counted`, `History.armedAt?` — what of a history still matters.
* `History.Reported` — a charge of the present or the last execution has reported exhaustion.
* `Budget.law_of_history` — **after any history**, what the next charge reports, what is on the
  account, and whether the budget has tripped.
-/

set_option autoImplicit false

namespace ScriptPool
namespace Budget

/-! ## Charges -/

/-- The next interval goes beyond the instructions that the budget allows for. -/
def Overruns (b : Budget) : Prop :=
  0 < b.instructionLimit ∧ b.instructionLimit < b.executed + b.interval

instance : DecidablePred Overruns := fun _ => instDecidableAnd

/-- What a charge of an armed budget reports. -/
def due (b : Budget) (now : Nat) : Option Exhaustion :=
  if b.Overruns then some (.instructions b.instructionLimit)
  else if b.isLate now then some (.time (b.maxDuration.getD .zero)) else none

variable {b b' : Budget} {now : Nat}

/-- A budget that is not armed neither counts nor reports. -/
theorem charge_of_disarmed (h : b.armed = false) : b.charge now = (none, b) := by
  rw [charge, h]
  rfl

/-- The charge of an armed budget counts an interval, and notes whether it has to report. -/
theorem charge_of_armed (h : b.armed = true) :
    b.charge now = (b.due now, { b with
      executed := b.executed + b.interval
      tripped := b.tripped || (b.due now).isSome }) := by
  by_cases hover : 0 < b.instructionLimit ∧ b.instructionLimit < b.executed + b.interval
  · have hdue : b.due now = some (.instructions b.instructionLimit) := if_pos hover
    simp [charge, h, hdue, hover]
  · have hdue : b.due now = if b.isLate now then some (.time (b.maxDuration.getD .zero)) else none :=
      if_neg hover
    have hcharge : b.charge now = if b.isLate now then
        (some (.time (b.maxDuration.getD .zero)),
          { b with executed := b.executed + b.interval, tripped := true })
        else (none, { b with executed := b.executed + b.interval }) := by
      rw [charge, h]
      simp only [Bool.not_true, Bool.false_eq_true, if_false, Bool.and_eq_true, decide_eq_true_eq]
      rw [if_neg hover]
      rfl
    rw [hcharge, hdue]
    cases b.isLate now <;> simp

/-! ## Histories -/

/-- Something that happens to a budget, and when. -/
inductive Event where
  | arm (now : Nat)
  | disarm
  | charge (now : Nat)

/-- What has happened to a budget, the latest event first. -/
abbrev History := List Event

/-- A budget after a history. -/
def after (b : Budget) : History → Budget
  | [] => b
  | .arm now :: earlier => (b.after earlier).arm now
  | .disarm :: earlier => (b.after earlier).disarm
  | .charge now :: earlier => ((b.after earlier).charge now).2

/-- Two budgets have the same terms: they allow for the same. -/
structure SameTerms (b b' : Budget) : Prop where
  limit : b'.instructionLimit = b.instructionLimit
  interval : b'.interval = b.interval
  duration : b'.maxDuration = b.maxDuration

theorem SameTerms.refl (b : Budget) : b.SameTerms b := ⟨rfl, rfl, rfl⟩

theorem SameTerms.trans {b'' : Budget} (h : b.SameTerms b') (h' : b'.SameTerms b'') :
    b.SameTerms b'' :=
  ⟨h'.limit.trans h.limit, h'.interval.trans h.interval, h'.duration.trans h.duration⟩

theorem sameTerms_charge (b : Budget) (now : Nat) : b.SameTerms (b.charge now).2 := by
  cases h : b.armed with
  | false => rw [charge_of_disarmed h]; exact .refl b
  | true => rw [charge_of_armed h]; exact ⟨rfl, rfl, rfl⟩

/-- **A history does not change the terms.** -/
theorem sameTerms_after (b : Budget) (history : History) : b.SameTerms (b.after history) := by
  induction history with
  | nil => exact .refl b
  | cons e earlier ih =>
    cases e with
    | arm now => exact ⟨ih.limit, ih.interval, ih.duration⟩
    | disarm => exact ⟨ih.limit, ih.interval, ih.duration⟩
    | charge now => exact ih.trans ((b.after earlier).sameTerms_charge now)

/-- A budget that is armed is as good as any other one with the same terms. -/
theorem SameTerms.arm (h : b.SameTerms b') (now : Nat) : b'.arm now = b.arm now := by
  rw [Budget.arm, Budget.arm, h.limit, h.interval, h.duration]

/-- **Arming forgets the history.** -/
theorem arm_after (b : Budget) (history : History) (now : Nat) :
    (b.after history).arm now = b.arm now := (b.sameTerms_after history).arm now

/-- One history after another. -/
theorem after_append (b : Budget) (later earlier : History) :
    b.after (later ++ earlier) = (b.after earlier).after later := by
  induction later with
  | nil => rfl
  | cons e later ih => cases e <;> rw [List.cons_append, after, ih, after]

namespace History

/-- Is a budget armed after the history? -/
def isArmed : History → Bool
  | [] => false
  | .arm _ :: _ => true
  | .disarm :: _ => false
  | .charge _ :: earlier => isArmed earlier

/-- How often the budget was charged since it was armed last, not counting charges that did not find
it armed. -/
def counted : History → Nat
  | [] => 0
  | .arm _ :: _ => 0
  | .disarm :: earlier => counted earlier
  | .charge _ :: earlier => if isArmed earlier then counted earlier + 1 else counted earlier

/-- When the budget was armed last. -/
def armedAt? : History → Option Nat
  | [] => none
  | .arm now :: _ => some now
  | .disarm :: earlier => armedAt? earlier
  | .charge _ :: earlier => armedAt? earlier

/-- The execution for which the budget was armed last may take so long, and that time is over. -/
def IsLate (maxDuration : Option Duration) (history : History) (now : Nat) : Prop :=
  ∃ start ∈ history.armedAt?, ∃ span ∈ maxDuration, start + span.nanos ≤ now

/-- A charge since the budget was armed last has reported that it is exhausted. -/
def Reported (b : Budget) (history : History) : Prop :=
  ∃ (later : History) (now : Nat) (earlier : History), history = later ++ .charge now :: earlier
    ∧ (∀ start, .arm start ∉ later) ∧ ((b.after earlier).charge now).1.isSome = true

variable {history earlier : History}

/-- Nothing was reported before anything happened. -/
theorem not_reported_nil : ¬ Reported b [] := fun ⟨_, _, _, h, _⟩ => by simp at h

/-- Nothing has been reported in an execution that has just begun. -/
theorem not_reported_arm : ¬ Reported b (.arm now :: earlier) := by
  rintro ⟨later, moment, before, h, hlater, -⟩
  cases later with
  | nil => cases h
  | cons e rest =>
    obtain ⟨rfl, -⟩ := List.cons.inj h
    exact hlater now List.mem_cons_self

theorem reported_disarm : Reported b (.disarm :: earlier) ↔ Reported b earlier := by
  constructor
  · rintro ⟨later, moment, before, h, hlater, hanswer⟩
    cases later with
    | nil => cases h
    | cons e rest =>
      exact ⟨rest, moment, before, (List.cons.inj h).2,
        fun start hin => hlater start (List.mem_cons_of_mem _ hin), hanswer⟩
  · rintro ⟨later, moment, before, rfl, hlater, hanswer⟩
    refine ⟨.disarm :: later, moment, before, rfl, fun start hin => ?_, hanswer⟩
    exact hlater start ((List.mem_cons.1 hin).resolve_left nofun)

theorem reported_charge : Reported b (.charge now :: earlier)
    ↔ ((b.after earlier).charge now).1.isSome = true ∨ Reported b earlier := by
  constructor
  · rintro ⟨later, moment, before, h, hlater, hanswer⟩
    cases later with
    | nil =>
      obtain ⟨hnow, rfl⟩ := List.cons.inj h
      cases hnow
      exact .inl hanswer
    | cons e rest =>
      exact .inr ⟨rest, moment, before, (List.cons.inj h).2,
        fun start hin => hlater start (List.mem_cons_of_mem _ hin), hanswer⟩
  · rintro (hanswer | ⟨later, moment, before, rfl, hlater, hanswer⟩)
    · exact ⟨[], now, earlier, rfl, fun _ => List.not_mem_nil, hanswer⟩
    · refine ⟨.charge now :: later, moment, before, rfl, fun start hin => ?_, hanswer⟩
      exact hlater start ((List.mem_cons.1 hin).resolve_left nofun)

end History

/-! ## What is left of a history

A budget knows less than its history.  What it knows is the charges since it was armed last, and
when that was, so those are what a charge goes by. -/

section

variable (limit interval : Nat) (maxDuration : Option Duration) (history : History)

theorem armed_after : ((new limit interval maxDuration).after history).armed = history.isArmed := by
  induction history with
  | nil => rfl
  | cons e earlier ih =>
    cases e with
    | arm now => rfl
    | disarm => rfl
    | charge now =>
      rw [after, History.isArmed, ← ih]
      cases h : ((new limit interval maxDuration).after earlier).armed with
      | false => rw [charge_of_disarmed h, h]
      | true => rw [charge_of_armed h, h]

theorem interval_after :
    ((new limit interval maxDuration).after history).interval = max interval 1 :=
  (sameTerms_after _ history).interval

/-- Only the charges since the budget was armed last are on the account. -/
theorem executed_after : ((new limit interval maxDuration).after history).executed
    = history.counted * max interval 1 := by
  induction history with
  | nil => exact (Nat.zero_mul _).symm
  | cons e earlier ih =>
    cases e with
    | arm now => exact (Nat.zero_mul _).symm
    | disarm => exact ih
    | charge now =>
      have harmed := armed_after limit interval maxDuration earlier
      rw [after, History.counted, ← harmed]
      cases h : ((new limit interval maxDuration).after earlier).armed with
      | false => rw [charge_of_disarmed h]; exact ih
      | true =>
        rw [charge_of_armed h, if_pos rfl, Nat.succ_mul, ← ih, interval_after]

/-- The deadline is that of the execution for which the budget was armed last. -/
theorem deadline_after : ((new limit interval maxDuration).after history).deadline
    = history.armedAt?.bind fun start => maxDuration.map fun span => start + span.nanos := by
  induction history with
  | nil => rfl
  | cons e earlier ih =>
    cases e with
    | arm now =>
      have hduration := (sameTerms_after (new limit interval maxDuration) earlier).duration
      rw [after, arm, hduration]
      rfl
    | disarm => exact ih
    | charge now =>
      rw [after, History.armedAt?, ← ih]
      cases h : ((new limit interval maxDuration).after earlier).armed with
      | false => rw [charge_of_disarmed h]
      | true => rw [charge_of_armed h]

theorem isLate_after (now : Nat) :
    ((new limit interval maxDuration).after history).isLate now = true
      ↔ history.IsLate maxDuration now := by
  rw [isLate, deadline_after, History.IsLate]
  cases history.armedAt? with
  | none => simp
  | some start =>
    cases maxDuration with
    | none => simp
    | some span => simp

/-- A budget has tripped when a charge of its last execution has reported exhaustion. -/
theorem tripped_after : ((new limit interval maxDuration).after history).tripped = true
    ↔ history.Reported (new limit interval maxDuration) := by
  induction history with
  | nil => exact iff_of_false Bool.false_ne_true History.not_reported_nil
  | cons e earlier ih =>
    cases e with
    | arm now => exact iff_of_false Bool.false_ne_true History.not_reported_arm
    | disarm => exact ih.trans History.reported_disarm.symm
    | charge now =>
      rw [History.reported_charge, ← ih, after]
      cases h : ((new limit interval maxDuration).after earlier).armed with
      | false => rw [charge_of_disarmed h]; simp
      | true => rw [charge_of_armed h]; simp [or_comm]

end

/-- The charge with which a limit is passed is the first one after all whole intervals below it. -/
theorem lt_mul_iff {limit step : Nat} (hstep : 0 < step) (k : Nat) :
    limit < k * step ↔ limit / step + 1 ≤ k := (Nat.div_lt_iff_lt_mul hstep).symm

/-- Words of 64 bits add up to the sum that fits into one. -/
theorem toNat_ofNat_add {m n : Nat} (h : m + n < 2 ^ 64) :
    (UInt64.ofNat m + UInt64.ofNat n).toNat = m + n := by
  rw [UInt64.toNat_add, UInt64.toNat_ofNat', UInt64.toNat_ofNat', ← Nat.add_mod, Nat.mod_eq_of_lt h]

/-- **The law of budgets.**  After any history, in which the budget was armed or not and charged
`k` times since then:

* the next charge of an armed budget reports exhaustion when it is the `k + 1`st and so many
  intervals are more than the limit, and not before, unless it is late: that is from the charge
  `limit / step + 1` on and up to the next time the budget is armed;
* when it is late, every charge of an armed budget reports exhaustion;
* a charge of a budget that is not armed reports nothing and changes nothing;
* `k` intervals are on the account;
* the budget has tripped when one of these charges has reported exhaustion;
* whatever happens from the next time the budget is armed happens as to a new one;
* a counter of 64 bits has the same account after the next charge, if that is less than `2 ^ 64`. -/
theorem law_of_history {limit : Nat} (hlimit : 0 < limit) (interval : Nat)
    (maxDuration : Option Duration) (history : History) (now : Nat) :
    let fresh := new limit interval maxDuration
    let b := fresh.after history
    let step := max interval 1
    (history.isArmed = true → ¬ history.IsLate maxDuration now →
        (b.charge now).1
            = (if limit < (history.counted + 1) * step then some (.instructions limit) else none)
          ∧ (limit < (history.counted + 1) * step ↔ limit / step + 1 ≤ history.counted + 1))
      ∧ (history.isArmed = true → history.IsLate maxDuration now →
        (b.charge now).1.isSome = true)
      ∧ (history.isArmed = false → b.charge now = (none, b))
      ∧ b.executed = history.counted * step
      ∧ (b.tripped = true ↔ history.Reported fresh)
      ∧ (∀ later : History, fresh.after (later ++ .arm now :: history)
          = fresh.after (later ++ [.arm now]))
      ∧ ((history.counted + 1) * step < 2 ^ 64 →
        (UInt64.ofNat b.executed + UInt64.ofNat b.interval).toNat
          = (history.counted + 1) * step) := by
  intro fresh b step
  have harmed : b.armed = history.isArmed := armed_after limit interval maxDuration history
  have hlate := isLate_after limit interval maxDuration history now
  have hexecuted : b.executed = history.counted * step :=
    executed_after limit interval maxDuration history
  have hover : b.Overruns ↔ limit < (history.counted + 1) * step := by
    have hterms := sameTerms_after fresh history
    rw [Overruns, hterms.limit, hterms.interval, hexecuted, Nat.succ_mul]
    exact and_iff_right hlimit
  have hlimit' : b.instructionLimit = limit := (sameTerms_after fresh history).limit
  refine ⟨fun h hnot => ⟨?_, lt_mul_iff (Nat.le_max_right ..) _⟩, fun h hyes => ?_, fun h => ?_,
    hexecuted, tripped_after limit interval maxDuration history, fun later => ?_, fun hfits => ?_⟩
  · rw [charge_of_armed (harmed.trans h), due, if_neg (mt hlate.1 hnot), hlimit']
    simp only [hover]
  · rw [charge_of_armed (harmed.trans h), due, if_pos (hlate.2 hyes)]
    split <;> rfl
  · exact charge_of_disarmed (harmed.trans h)
  · rw [after_append, after_append, after, arm_after]
    rfl
  · have hinterval : b.interval = step := interval_after limit interval maxDuration history
    rw [Nat.succ_mul] at hfits ⊢
    rw [hexecuted, hinterval, toNat_ofNat_add hfits]

/-- A limit of five instructions that are counted by twos is passed with the third charge after the
budget was armed, which it stays until it is armed again. -/
theorem law_of_five :
    0 < 5 ∧ ((new 5 2 none).after [.charge 0, .charge 0, .disarm, .charge 0, .arm 0]).executed = 2
      ∧ (((new 5 2 none).after [.charge 0, .charge 0, .arm 0, .charge 0, .arm 0]).charge 0).1
        = some (.instructions 5) := by
  have hdisarmed := law_of_history (by decide : 0 < 5) 2 none
    [.charge 0, .charge 0, .disarm, .charge 0, .arm 0] 0
  have harmed := law_of_history (by decide : 0 < 5) 2 none
    [.charge 0, .charge 0, .arm 0, .charge 0, .arm 0] 0
  have hnever : ¬ History.IsLate none [.charge 0, .charge 0, .arm 0, .charge 0, .arm 0] 0 :=
    fun ⟨_, _, _, h, _⟩ => nomatch h
  exact ⟨by decide, hdisarmed.2.2.2.1, (harmed.1 rfl hnever).1⟩

end Budget
end ScriptPool
