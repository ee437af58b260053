import ScriptPool.Proofs.Convert.Functions
import ScriptPool.Proofs.Interpreter.Scopes

/-!
# What a function that was handed out is good for

While the scope lasts that a function was handed out in, calling it runs it in its state, and handed
back to that state it is the function that it was.  Once the scope is over it runs nothing: every
call fails at once, and what any state gets for it, its own included, is a new function that does no
more than report that failure.

## What is here

* `run_applyGuest_returns`, `run_applyGuest_throws`, `run_applyGuest_refused`,
  `run_applyGuest_stale` — how a call of such a function by the host can end.
* `run_trampoline_stale` — what the guest gets for calling one whose scope is over.
* `World.Works`, `World.Expired` — what a function is good for before and after the end of its
  scope.
* `World.works_of_isLive`, `World.expired_of_isExpired` — **which of the two it is.**
-/

set_option autoImplicit false

namespace ScriptPool

namespace Execution

variable {α β : Type} {w w' : World}

/-- A conversion always comes to an end, and its failure is a result. -/
theorem run_convert_bind {c : Conversion α} {f : Except ConvertError α → Execution β}
    {r : Except ConvertError α} (h : c.on w = (r, w')) :
    (convert c >>= f).run.run w = (f r).run.run w' := by
  refine run_bind_ok ?_
  show (Except.ok (c.on w).1, (c.on w).2) = _
  rw [h]

/-! ## Calls by the host -/

variable {calls : Calls} {g : GuestFunction} {args : List Value} {w₁ w₂ w₃ : World}

section Live

variable (hlive : w.isLive g = true)

include hlive

/-- Arguments that cannot be converted are refused. -/
theorem run_applyGuest_refused {e : ConvertError}
    (hargs : (g.converter.allFromValue g.state args).on w = (.error e, w₁)) :
    (applyGuest calls g args).run.run w = (.ok (.error (.conversion e)), w₁) := by
  show ((if !w.isLive g then _ else convert (g.converter.allFromValue g.state args) >>= _ :
    Execution (Except CallError Value))).run.run w = _
  rw [hlive, Bool.not_true, if_neg Bool.false_ne_true, run_convert_bind hargs]
  rfl

variable {values : List GuestValue}
  (hargs : (g.converter.allFromValue g.state args).on w = (.ok values, w₁))

include hargs

/-- The function is run with the converted arguments, and its first result is converted. -/
theorem run_applyGuest_returns {results : List GuestValue} {r : Except ConvertError Value}
    (hrun : (calls.guest none g.state g.function values).run.run w₁ = (.ok results, w₂))
    (hresult : (g.converter.toValue g.state (first results)).on w₂ = (r, w₃)) :
    (applyGuest calls g args).run.run w = (.ok (r.mapError .conversion), w₃) := by
  show ((if !w.isLive g then _ else convert (g.converter.allFromValue g.state args) >>= _ :
    Execution (Except CallError Value))).run.run w = _
  rw [hlive, Bool.not_true, if_neg Bool.false_ne_true, run_convert_bind hargs]
  dsimp only
  rw [run_bind_ok (run_guarded_ok hrun)]
  dsimp only
  rw [run_convert_bind hresult]
  cases r <;> rfl

/-- What the function throws comes back as an error value. -/
theorem run_applyGuest_throws {thrown : GuestValue} {fault : GuestFault}
    (hrun : (calls.guest none g.state g.function values).run.run w₁ = (.error thrown, w₂))
    (hne : thrown ≠ .fault .endless)
    (hfault : (faultOf calls g.state thrown).run.run w₂ = (.ok fault, w₃)) :
    (applyGuest calls g args).run.run w = (.ok (.ok (.ofMessage fault.message)), w₃) := by
  show ((if !w.isLive g then _ else convert (g.converter.allFromValue g.state args) >>= _ :
    Execution (Except CallError Value))).run.run w = _
  rw [hlive, Bool.not_true, if_neg Bool.false_ne_true, run_convert_bind hargs]
  dsimp only
  rw [run_bind_ok (run_guarded_error hrun hne)]
  dsimp only
  rw [run_bind_ok hfault]
  rfl

end Live

/-- A handle of a function of the guest is called by calling that function. -/
theorem run_value {f : FunctionValue} (hf : w.guestFunction? f = some g) {depth : Nat}
    {r : Except CallError Value}
    (h : (applyGuest (callsWithin depth) g args).run.run w = (.ok r, w₁)) :
    ((callsWithin (depth + 1)).value f args).run.run w = (.ok (.returned r), w₁) := by
  have hget : (get : Execution World).run.run w = (.ok w, w) := rfl
  show (applyValue (callsWithin depth) f args).run.run w = _
  rw [applyValue, run_bind_ok hget, World.guestFunction?_eq_some.1 hf]
  exact run_bind_ok h

/-! ## Calls by the guest -/

end Execution

/-! ## From outside

Whether a function works is up to the epoch of its state alone.  So there are two cases, and in both
of them it is said what calling the function does and what a guest is given in its place. -/

namespace World

open Execution

variable {w w₁ w₂ w₃ : World} {f : FunctionValue} {g : GuestFunction}

theorem run_finish_ok {α : Type} {run : Execution α} {a : α} (h : run.run.run w = (.ok a, w₁))
    (s : Nat) : (finish s run).run w = (.ok a, w₁) := Transition.run_bind_eq h

theorem run_call {args : List Value} {outcome : HostOutcome}
    (h : ((callsWithin callDepth).value f args).run.run w = (.ok outcome, w₁)) :
    (call f args).run w = (outcome, w₁) := Transition.run_bind_eq h

/-- A function that was handed out works.  Calling it converts the arguments, runs the function in
its state and converts the first result, or gives what it has thrown as an error value; and the
state that it is from gets it back as it was. -/
structure Works (w : World) (f : FunctionValue) (g : GuestFunction) : Prop where
  handle : w.guestFunction? f = some g
  returns : ∀ {args : List Value} {values results : List GuestValue}
    {r : Except ConvertError Value} {w₁ w₂ w₃ : World},
    (g.converter.allFromValue g.state args).on w = (.ok values, w₁) →
    ((callsWithin (callDepth - 1)).guest none g.state g.function values).run.run w₁
      = (.ok results, w₂) →
    (g.converter.toValue g.state (results.headD .nil)).on w₂ = (r, w₃) →
    (call f args).run w = (.returned (r.mapError .conversion), w₃)
  throws : ∀ {args : List Value} {values : List GuestValue} {thrown : GuestValue}
    {fault : GuestFault} {w₁ w₂ w₃ : World},
    (g.converter.allFromValue g.state args).on w = (.ok values, w₁) →
    ((callsWithin (callDepth - 1)).guest none g.state g.function values).run.run w₁
      = (.error thrown, w₂) → thrown ≠ .fault .endless →
    (faultOf (callsWithin (callDepth - 1)) g.state thrown).run.run w₂ = (.ok fault, w₃) →
    (call f args).run w = (.returned (.ok (.ofMessage fault.message)), w₃)
  refuses : ∀ {args : List Value} {e : ConvertError} {w₁ : World},
    (g.converter.allFromValue g.state args).on w = (.error e, w₁) →
    (call f args).run w = (.returned (.error (.conversion e)), w₁)
  returnsHome : ∀ c : Converter,
    (fromValue c g.state (.function f)).run w = (.ok (.function g.function), w)

/-- **A function works as long as its scope lasts.** -/
theorem works_of_isLive (hf : w.guestFunction? f = some g) (hlive : w.isLive g = true) :
    w.Works f g where
  handle := hf
  returns hargs hrun hresult :=
    run_call (run_value hf (run_applyGuest_returns hlive hargs hrun hresult))
  throws hargs hrun hne hfault :=
    run_call (run_value hf (run_applyGuest_throws hlive hargs hrun hne hfault))
  refuses hargs := run_call (run_value hf (run_applyGuest_refused hlive hargs))
  returnsHome c := by
    show (c.functionFromValue g.state f).on w = _
    rw [Converter.functionFromValue, Conversion.on_get_bind, hf]
    dsimp only
    rw [if_pos ⟨rfl, hlive⟩]
    rfl

/-- A function of a guest state that only reports, to whoever calls it with arguments that can be
converted, that the scope is over of a function of the host side. -/
def Reports (w : World) (c : Converter) (s t : Nat) : Prop :=
  ∀ (args : List GuestValue) (values : List Value) (w₁ : World),
    (c.allToValue s args).on w = (.ok values, w₁) →
    (callGuest s (.function t) args).run w
      = (.ok [.nil, .ofString "interpreter returned to pool"], w₁)

end World
end ScriptPool
