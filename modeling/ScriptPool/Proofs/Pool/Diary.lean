import Mathlib.Algebra.GroupWithZero.Nat
import Mathlib.Logic.Function.Basic
import ScriptPool.Pool.Load

/-!
# The load of an interpreter, by the loans that there were

What the table of loads says about an interpreter is a function of its loans: how many there were,
which of them have ended and after how long, and since when the present one goes on.

## What is here

* `LoanEvent` — an interpreter is lent out, or it comes back.
* `timesLent`, `since?` and `pastLoans` — what a history of such events says about an interpreter.
* `account` — the load that follows from it, and `due`, the entry that the table should have.
* `due_lent` and `due_back` — **how the entries change with an event**: for the interpreter that it
  is about, as the table does it; for the others not at all.
-/

set_option autoImplicit false

namespace ScriptPool

/-- A loan begins or ends. -/
inductive LoanEvent where
  | lent (id now : Nat)
  | back (id now : Nat)
  deriving Repr, DecidableEq

namespace LoanEvent

/-! ## What a history says

Histories have the latest event first. -/

/-- How often an interpreter was lent out. -/
def timesLent : List LoanEvent → Nat → Nat
  | [], _ => 0
  | .lent other _ :: d, id => (if other = id then 1 else 0) + timesLent d id
  | .back _ _ :: d, id => timesLent d id

/-- Since when an interpreter is on loan, if it is. -/
def since? : List LoanEvent → Nat → Option Nat
  | [], _ => none
  | .lent other now :: d, id => if other = id then some now else since? d id
  | .back other _ :: d, id => if other = id then none else since? d id

/-- The loans of an interpreter that have ended: when each began, and when it ended. -/
def pastLoans : List LoanEvent → Nat → List (Nat × Nat)
  | [], _ => []
  | .lent _ _ :: d, id => pastLoans d id
  | .back other now :: d, id =>
      if other = id then ((since? d id).map fun start => (start, now)).toList ++ pastLoans d id
      else pastLoans d id

/-- How long some loans have lasted together. -/
def timeSpent (loans : List (Nat × Nat)) : Nat := (loans.map fun loan => loan.2 - loan.1).sum

/-- The load of an interpreter.  The average is that of the loans that have ended. -/
def account (d : List LoanEvent) (id : Nat) : LoadInfo where
  count := timesLent d id
  total := ⟨timeSpent (pastLoans d id)⟩
  startedAt := since? d id
  average := ⟨timeSpent (pastLoans d id) / min (pastLoans d id).length LoadInfo.divisorBound⟩

/-- The entry for an interpreter: none as long as it was not on loan. -/
def due (d : List LoanEvent) (id : Nat) : Option LoadInfo :=
  if timesLent d id = 0 then none else some (account d id)

/-- Every loan has ended or goes on. -/
def Consistent (d : List LoanEvent) : Prop :=
  ∀ id, timesLent d id = (pastLoans d id).length + (since? d id).toList.length

variable {d : List LoanEvent} {id other now start : Nat}

/-! ## A loan begins -/

theorem timesLent_lent (d : List LoanEvent) (id now : Nat) :
    timesLent (.lent id now :: d) id = timesLent d id + 1 := by
  rw [timesLent, if_pos rfl, Nat.add_comm]

theorem timesLent_lent_of_ne (h : other ≠ id) :
    timesLent (.lent other now :: d) id = timesLent d id := by
  rw [timesLent, if_neg h, Nat.zero_add]

theorem since?_lent (d : List LoanEvent) (id now : Nat) :
    since? (.lent id now :: d) id = some now := if_pos rfl

theorem since?_lent_of_ne (h : other ≠ id) :
    since? (.lent other now :: d) id = since? d id := if_neg h

theorem Consistent.lent (h : Consistent d) (hs : since? d id = none) :
    Consistent (.lent id now :: d) := by
  intro other
  have ho := h other
  by_cases he : id = other
  · obtain rfl := he
    rw [hs] at ho
    rw [timesLent_lent, since?_lent, pastLoans]
    exact congrArg (· + 1) ho
  · rwa [timesLent_lent_of_ne he, since?_lent_of_ne he, pastLoans]

/-- An interpreter that was not on loan has no past loans. -/
theorem Consistent.pastLoans_eq_nil (h : Consistent d) (h0 : timesLent d id = 0) :
    pastLoans d id = [] := by
  have hid := h id
  exact List.eq_nil_of_length_eq_zero (by omega)

/-- **What a loan that begins does to the entries.** -/
theorem due_lent (h : Consistent d) (id now : Nat) :
    due (.lent id now :: d)
      = Function.update (due d) id (some (((due d id).getD {}).start now)) := by
  funext other
  by_cases he : other = id
  · obtain rfl := he
    rw [Function.update_self, due, timesLent_lent, if_neg (Nat.succ_ne_zero _)]
    refine congrArg some ?_
    rw [due, account, timesLent_lent, since?_lent, pastLoans]
    split
    · rename_i h0
      rw [h0, h.pastLoans_eq_nil h0]
      rfl
    · rfl
  · rw [Function.update_of_ne he, due, due, account, account, timesLent_lent_of_ne (Ne.symm he),
      since?_lent_of_ne (Ne.symm he), pastLoans]

/-! ## A loan ends -/

theorem since?_back (d : List LoanEvent) (id now : Nat) : since? (.back id now :: d) id = none :=
  if_pos rfl

theorem since?_back_of_ne (h : other ≠ id) :
    since? (.back other now :: d) id = since? d id := if_neg h

theorem pastLoans_back (h : since? d id = some start) (now : Nat) :
    pastLoans (.back id now :: d) id = (start, now) :: pastLoans d id := by
  rw [pastLoans, if_pos rfl, h]
  rfl

theorem pastLoans_back_of_ne (h : other ≠ id) :
    pastLoans (.back other now :: d) id = pastLoans d id := if_neg h

theorem Consistent.back (h : Consistent d) (hs : since? d id = some start) :
    Consistent (.back id now :: d) := by
  intro other
  have ho := h other
  by_cases he : id = other
  · obtain rfl := he
    rw [hs] at ho
    rw [timesLent, since?_back, pastLoans_back hs]
    exact ho
  · rwa [timesLent, since?_back_of_ne he, pastLoans_back_of_ne he]

/-- **What a loan that ends does to the entries.**  All loans of the interpreter have ended then, so
the average is over as many loans as were counted. -/
theorem due_back (h : Consistent d) (hs : since? d id = some start) (now : Nat) :
    due (.back id now :: d) = Function.update (due d) id ((due d id).map (·.stop now)) := by
  funext other
  by_cases he : other = id
  · obtain rfl := he
    have hcount : timesLent d other = (pastLoans d other).length + 1 := by
      rw [h other, hs]
      rfl
    have hne : timesLent d other ≠ 0 := by omega
    have hspent : timeSpent ((start, now) :: pastLoans d other)
        = timeSpent (pastLoans d other) + (now - start) := Nat.add_comm _ _
    rw [Function.update_self, due, due, timesLent, if_neg hne, if_neg hne, Option.map_some]
    refine congrArg some ?_
    rw [account, timesLent, since?_back, pastLoans_back hs, hspent, List.length_cons, ← hcount,
      LoadInfo.stop]
    simp only [account, hs, if_neg hne]
  · rw [Function.update_of_ne he, due, due, timesLent, account, account, timesLent,
      since?_back_of_ne (Ne.symm he), pastLoans_back_of_ne (Ne.symm he)]

end LoanEvent
end ScriptPool
