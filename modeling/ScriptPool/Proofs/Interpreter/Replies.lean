import Mathlib.Data.List.Forall2
import ScriptPool.Proofs.Interpreter.HostFunctions

/-!
# Failures of the host are values in the guest

A guest that calls a function of the host has only results to look at: one if all went well, and
`nil` with a message if anything went wrong on the way in, in the function or on the way out.
Nothing that it could catch is ever thrown at it.  The one thing that no bridge can turn into a
result is a call that does not end.

## What is here

* `Execution.Contained` — an execution throws nothing that can be caught.
* `Execution.contained_callsWithin` — so it is with every call that the host makes.
* `Converter.Replies` — what the guest gets for each way in which a function of the host can end.
* `World.HostCall` — how a call of a function of the host by a guest can go.
* `World.hostCall_of_trampoline` — **so goes every call, whatever the function and its arguments.**
-/

set_option autoImplicit false

namespace ScriptPool

/-! ## What the host calls throws nothing

Calls of the guest by the host are guarded, and calls of the host by the guest give results, so
nothing that was thrown gets across in either direction.  The induction is on how deeply calls are
nested. -/

namespace Execution

/-- An execution throws nothing that can be caught: all that can be wrong is that it does not end.
-/
def Contained {α : Type} (t : Execution α) : Prop :=
  ∀ (w w' : World) (thrown : GuestValue), t.run.run w = (.error thrown, w') →
    thrown = .fault .endless

variable {α β : Type} {calls : Calls} {s : Nat}

theorem contained_pure (a : α) : Contained (pure a : Execution α) := fun _ _ _ h => by cases h

theorem Contained.bind {t : Execution α} {f : α → Execution β} (ht : Contained t)
    (hf : ∀ a, Contained (f a)) : Contained (t >>= f) := by
  intro w w' thrown h
  rcases hrun : t.run.run w with ⟨thrown' | a, v⟩
  · rw [run_bind_error hrun] at h
    cases h
    exact ht w _ _ hrun
  · rw [run_bind_ok hrun] at h
    exact hf a v w' thrown h

/-- What is looked at can be handled in each world for itself. -/
theorem contained_get_bind {f : World → Execution α} (hf : ∀ w, Contained (f w)) :
    Contained (get >>= f) :=
  Contained.bind (fun _ _ _ h => by cases h) hf

theorem contained_set (w : World) : Contained (set w : Execution PUnit) := fun _ _ _ h => by cases h

theorem contained_convert (c : Conversion α) : Contained (convert c) := fun _ _ _ h => by cases h

/-- What is run and caught throws nothing that can be caught. -/
theorem contained_guarded (run : Execution α) : Contained (guarded run) := by
  intro w w' thrown h
  rcases hrun : run.run.run w with ⟨thrown' | a, v⟩
  · by_cases hendless : thrown' = .fault .endless
    · obtain rfl := hendless
      rw [guarded, run_tryCatch_error (run_bind_error hrun)] at h
      cases h
      rfl
    · rw [run_guarded_error hrun hendless] at h
      cases h
  · rw [run_guarded_ok hrun] at h
    cases h

/-- Nor does finding out what was thrown. -/
theorem contained_faultOf (thrown : GuestValue) : Contained (faultOf calls s thrown) := by
  have htext : ∀ t : Execution ByteArray, Contained
      (tryCatch t fun _ => pure "<error object>".toUTF8) := by
    intro t w w' thrown h
    rcases hrun : t.run.run w with ⟨thrown' | a, v⟩
    · rw [run_tryCatch_error hrun] at h
      cases h
    · rw [run_tryCatch_ok hrun] at h
      cases h
  rw [faultOf.eq_def]
  split
  · exact contained_pure _
  · exact (htext _).bind fun _ => contained_pure _

theorem contained_hostAction {call : FunctionValue → List Value → Execution HostOutcome}
    (h : ∀ f args, Contained (call f args)) (action : HostAction) :
    Contained (action.run call) := by
  induction action with
  | finish outcome => exact contained_pure _
  | invoke f args resume ih =>
    rw [HostAction.run]
    refine (h f args).bind fun outcome => ?_
    cases outcome with
    | returned result => exact ih result
    | panicked message => exact contained_pure _

/-- Whatever a function of the guest throws is a result for the host. -/
theorem contained_applyGuest (f : GuestFunction) (args : List Value) :
    Contained (applyGuest calls f args) := by
  refine contained_get_bind fun w => ?_
  split
  · exact contained_pure _
  · refine (contained_convert _).bind fun values => ?_
    cases values with
    | error e => exact contained_pure _
    | ok values =>
      refine (contained_guarded _).bind fun results => ?_
      cases results with
      | error thrown => exact (contained_faultOf _).bind fun _ => contained_pure _
      | ok results =>
        refine (contained_convert _).bind fun v => ?_
        cases v with
        | ok v => exact contained_pure _
        | error e => exact contained_pure _

theorem contained_applyValue (h : ∀ f args, Contained (calls.value f args)) (f : FunctionValue)
    (args : List Value) : Contained (applyValue calls f args) := by
  refine contained_get_bind fun w => ?_
  split
  · exact contained_pure _
  · exact (contained_set _).bind fun _ => contained_hostAction h _
  · exact (contained_applyGuest _ _).bind fun _ => contained_pure _

/-- **A call that the host makes throws nothing**, however deeply calls are nested in it. -/
theorem contained_callsWithin (depth : Nat) : ∀ (f : FunctionValue) (args : List Value),
    Contained ((callsWithin depth).value f args) := by
  induction depth with
  | zero => exact fun _ _ => contained_pure _
  | succ depth ih => exact contained_applyValue ih

end Execution

/-! ## What the guest gets

The arguments are converted before the function is called and its result afterwards, and each of the
three may fail.  In the end it makes no difference which of them it was. -/

namespace Converter

variable {c : Converter} {s : Nat}

/-- What a guest gets when a function of the host has ended: the value that the function has given,
or `nil` and a message. -/
inductive Replies (c : Converter) (s : Nat) :
    HostOutcome → World → List GuestValue → World → Prop where
  | value {x : Value} {result : GuestValue} {w w' : World} (hx : ∀ e, x ≠ .error e)
      (h : (c.fromValue s x).on w = (.ok result, w')) :
      Replies c s (.returned (.ok x)) w [result] w'
  /-- The function has given a value that has no form in the guest. -/
  | inexpressible {x : Value} {e : ConvertError} {w w' : World} (hx : ∀ e, x ≠ .error e)
      (h : (c.fromValue s x).on w = (.error e, w')) :
      Replies c s (.returned (.ok x)) w [.nil, .ofString e.message] w'
  | errorValue (e : ErrorValue) (w : World) :
      Replies c s (.returned (.ok (.error e))) w [.nil, .ofString e.message] w
  | failure (e : CallError) (w : World) :
      Replies c s (.returned (.error e)) w [.nil, .ofString e.message] w
  | panic (payload : Option String) (w : World) :
      Replies c s (.panicked payload) w [.nil, .ofString (panicText payload)] w

/-- There is one result, or there are two that report a failure. -/
theorem Replies.results {outcome : HostOutcome} {w w' : World} {results : List GuestValue}
    (h : c.Replies s outcome w results w') :
    results.length = 1 ∨ ∃ message : String, results = [.nil, .ofString message] := by
  cases h with
  | value hx h => exact .inl rfl
  | inexpressible hx h => exact .inr ⟨_, rfl⟩
  | errorValue e => exact .inr ⟨_, rfl⟩
  | failure e => exact .inr ⟨_, rfl⟩
  | panic payload => exact .inr ⟨_, rfl⟩

/-- Nothing is called for a reply. -/
theorem Replies.functions {outcome : HostOutcome} {w w' : World} {results : List GuestValue}
    (h : c.Replies s outcome w results w') : w'.functions = w.functions := by
  have hput : ∀ {x : Value} {r : Except ConvertError GuestValue} {v v' : World},
      (c.fromValue s x).on v = (r, v') → v'.functions = v.functions := by
    intro x r v v' h
    have hsame : v.SameFunctions ((c.fromValue s x).on v).2 :=
      c.keeps_fromValueAt s World.takesIn_sameFunctions trivial _ _ v
    rwa [h] at hsame
  cases h with
  | value hx h => exact hput h
  | inexpressible hx h => exact hput h
  | errorValue e => rfl
  | failure e => rfl
  | panic payload => rfl

/-- Every argument that is passed arrives, and `nil` arrives as `nil`. -/
theorem forall₂_of_allToValue {args : List GuestValue} : ∀ {values : List Value} {w w' : World},
    (c.allToValue s args).on w = (.ok values, w') →
      List.Forall₂ (fun v x => v = .nil → x = .nil) args values := by
  induction args with
  | nil =>
    intro values w w' h
    cases h
    exact .nil
  | cons v rest ih =>
    intro values w w' h
    rw [allToValue] at h
    obtain ⟨x, w₁, hx, h⟩ := Conversion.exists_of_on_bind h
    obtain ⟨others, w₂, hothers, h⟩ := Conversion.exists_of_on_bind h
    cases h
    refine .cons (fun hv => ?_) (ih hothers)
    obtain rfl := hv
    have hnil : (c.toValue s .nil).on w = (.ok .nil, w) := on_toValueAt_leaf fun id h => by cases h
    rw [hnil] at hx
    cases hx
    rfl

end Converter

namespace Execution

variable {calls : Calls} {c : Converter} {s : Nat} {f : FunctionValue} {args : List GuestValue}
  {w w₁ w₂ : World}

/-- Arguments that cannot be converted are not passed on. -/
theorem run_trampoline_refuses {e : ConvertError}
    (hargs : (c.allToValue s args).on w = (.error e, w₁)) :
    (trampoline calls s f c args).run.run w
      = (.ok [.nil, .ofString (CallError.conversion e).message], w₁) := by
  rw [trampoline, run_convert_bind hargs]
  rfl

/-- A call that does not end leaves the guest waiting. -/
theorem run_trampoline_endless {values : List Value} {thrown : GuestValue}
    (hargs : (c.allToValue s args).on w = (.ok values, w₁))
    (hcall : (calls.value f values).run.run w₁ = (.error thrown, w₂)) :
    (trampoline calls s f c args).run.run w = (.error thrown, w₂) := by
  rw [trampoline, run_convert_bind hargs]
  exact run_bind_error hcall

/-- However the function of the host ends, the guest gets a reply. -/
theorem exists_replies {values : List Value} {outcome : HostOutcome}
    (hargs : (c.allToValue s args).on w = (.ok values, w₁))
    (hcall : (calls.value f values).run.run w₁ = (.ok outcome, w₂)) :
    ∃ results w₃, (trampoline calls s f c args).run.run w = (.ok results, w₃)
      ∧ c.Replies s outcome w₂ results w₃ := by
  have hfails : ∀ {message : String}, outcome.reply = .error message →
      (trampoline calls s f c args).run.run w = (.ok [.nil, .ofString message], w₂) :=
    fun h => run_trampoline_fails hargs hcall (.reply h)
  cases outcome with
  | panicked payload => exact ⟨_, _, hfails rfl, .panic payload w₂⟩
  | returned result =>
    cases result with
    | error e => exact ⟨_, _, hfails rfl, .failure e w₂⟩
    | ok x =>
      by_cases herror : ∃ e, x = .error e
      · obtain ⟨e, rfl⟩ := herror
        exact ⟨_, _, hfails rfl, .errorValue e w₂⟩
      · have hx : ∀ e, x ≠ .error e := fun e he => herror ⟨e, he⟩
        rcases hput : (c.fromValue s x).on w₂ with ⟨e | value, w₃⟩
        · exact ⟨_, _, run_trampoline_fails hargs hcall (.result (HostOutcome.reply_ok hx) hput),
            .inexpressible hx hput⟩
        · exact ⟨_, _, run_trampoline_returns hargs hcall (HostOutcome.reply_ok hx) hput,
            .value hx hput⟩

end Execution

/-! ## Calls by the guest -/

namespace World

open Execution

variable {w : World} {c : Converter} {s id : Nat} {f : FunctionValue} {h : HostFunction}

/-- How a call of a function of the host by a guest can go, where `depth` more calls can be nested
in it.  The function is called if all arguments can be converted, and then once: that call is noted
before it does what it does, and nothing is called afterwards. -/
inductive HostCall (w : World) (c : Converter) (s : Nat) (i : Handle) (h : HostFunction)
    (depth : Nat) (args : List GuestValue) : Except GuestValue (List GuestValue) × World → Prop where
  /-- An argument cannot be converted, and the function is not called. -/
  | refused {e : ConvertError} {w₁ : World} (goesIn : (c.allToValue s args).on w = (.error e, w₁))
      (record : w₁.functions[i]? = some (.host h)) :
      HostCall w c s i h depth args
        (.ok [.nil, .ofString (CallError.conversion e).message], w₁)
  /-- The function is called with all arguments and ends, and the guest gets a reply. -/
  | answered {values : List Value} {outcome : HostOutcome} {results : List GuestValue}
      {w₁ w₂ w₃ : World} (goesIn : (c.allToValue s args).on w = (.ok values, w₁))
      (length : values.length = args.length)
      (nils : List.Forall₂ (fun v x => v = .nil → x = .nil) args values)
      (record : w₁.functions[i]? = some (.host h))
      (acts : ((h.respond h.calls values).run (callsWithin depth).value).run.run
        (w₁.noteCall i h values) = (.ok outcome, w₂))
      (replies : c.Replies s outcome w₂ results w₃)
      (calls : ∃ more, w₃.functions[i]? = some (.host { h with calls := h.calls ++ values :: more })
        ∧ (h.respond h.calls values = .finish outcome → more = [])) :
      HostCall w c s i h depth args (.ok results, w₃)
  /-- The function is called with all arguments and does not end. -/
  | endless {values : List Value} {w₁ w₂ : World}
      (goesIn : (c.allToValue s args).on w = (.ok values, w₁))
      (length : values.length = args.length)
      (record : w₁.functions[i]? = some (.host h))
      (acts : ((h.respond h.calls values).run (callsWithin depth).value).run.run
        (w₁.noteCall i h values) = (.error (.fault .endless), w₂)) :
      HostCall w c s i h depth args (.error (.fault .endless), w₂)

/-- A function that calls no others ends, so the guest gets results. -/
theorem HostCall.returns {depth : Nat} {args : List GuestValue} {i : Handle}
    {r : Except GuestValue (List GuestValue) × World} (hcall : w.HostCall c s i h depth args r)
    (hfinish : ∀ values, ∃ outcome, h.respond h.calls values = .finish outcome) :
    ∃ results, r.1 = .ok results
      ∧ (results.length = 1 ∨ ∃ message : String, results = [.nil, .ofString message]) := by
  cases hcall with
  | refused goesIn record => exact ⟨_, rfl, .inr ⟨_, rfl⟩⟩
  | answered goesIn length nils record acts replies calls => exact ⟨_, rfl, replies.results⟩
  | @endless values w₁ w₂ goesIn length record acts =>
    obtain ⟨outcome, houtcome⟩ := hfinish values
    rw [houtcome] at acts
    cases acts

/-- **A failure of the host is a value in the guest.**  Whatever function of the host a function of
the guest calls, and with whatever arguments it is called, the call gives results, unless the
function of the host does not end. -/
theorem hostCall_of_trampoline (hclosure : (w.state s).functions[id]? = some (.trampoline f c))
    (hf : w.functions[f.handle]? = some (.host h)) (depth : Nat) (chunk : Option String)
    (args : List GuestValue) :
    w.HostCall c s f.handle h depth args
      (((callsWithin (depth + 2)).guest chunk s id args).run.run w) := by
  have hrun : ((callsWithin (depth + 2)).guest chunk s id args).run.run w
      = (trampoline (callsWithin (depth + 1)) s f c args).run.run w := by
    show (applyFunction (callsWithin (depth + 1)) chunk s id args).run.run w = _
    rw [applyFunction, run_stateOf_bind, hclosure]
  rw [hrun]
  -- converting the arguments calls nothing
  have hrecord : ((c.allToValue s args).on w).2.functions[f.handle]? = some (.host h) := by
    have hgrows : w.Grows ((c.allToValue s args).on w).2 :=
      c.keeps_allToValue s World.handsOut_grows trivial args w
    exact hgrows.functions _ _ hf
  rcases hargs : (c.allToValue s args).on w with ⟨e | values, w₁⟩
  · rw [hargs] at hrecord
    rw [run_trampoline_refuses hargs]
    exact .refused hargs hrecord
  · rw [hargs] at hrecord
    have hnils := Converter.forall₂_of_allToValue hargs
    have hnote : ((callsWithin (depth + 1)).value f values).run.run w₁ = _ :=
      run_value_host hrecord depth
    rcases hacts : ((h.respond h.calls values).run (callsWithin depth).value).run.run
      (w₁.noteCall f.handle h values) with ⟨thrown | outcome, w₂⟩
    · obtain rfl := contained_hostAction (contained_callsWithin depth) _ _ _ _ hacts
      rw [run_trampoline_endless hargs (hnote.trans hacts)]
      exact .endless hargs hnils.length_eq.symm hrecord hacts
    · obtain ⟨results, w₃, hresults, hreplies⟩ := exists_replies hargs (hnote.trans hacts)
      rw [hresults]
      refine .answered hargs hnils.length_eq.symm hnils hrecord hacts hreplies ?_
      have hremembers : (w₁.noteCall f.handle h values).Remembers w₂ := by
        have hkeeps := keeps_hostAction (keeps_callsWithin admits_remembers.serves depth).2
          (h.respond h.calls values) (w₁.noteCall f.handle h values)
        rwa [hacts] at hkeeps
      have hnoted : (w₁.noteCall f.handle h values).functions[f.handle]? = _ :=
        getElem?_noteCall hrecord
      by_cases hfinish : h.respond h.calls values = .finish outcome
      · rw [hfinish] at hacts
        cases hacts
        exact ⟨[], by rw [hreplies.functions, hnoted], fun _ => rfl⟩
      · obtain ⟨more, hmore⟩ := hremembers _ _ hnoted
        exact ⟨more, by rw [hreplies.functions, hmore]; simp, fun h => absurd h hfinish⟩

/-- A function that breaks down has been called once, with the `nil` too, and the guest gets `nil`
and a message. -/
theorem hostCall_of_trampoline_panic :
    ∃ w w', w = handedBack {} (.panic "out of stock") #[]
      ∧ w.HostCall {} 0 0 (StockFunction.panic "out of stock").hostFunction 0 [.nil, .boolean true]
        (.ok [.nil, .ofString "host function panicked: out of stock"], w')
      ∧ w'.functions[0]? = some (.host
        { (StockFunction.panic "out of stock").hostFunction with calls := [[.nil, .bool true]] }) :=
  ⟨_, _, rfl, hostCall_of_trampoline (f := ⟨"f", 0⟩) (wraps_handedBack _ _ _).closure rfl 0 none
    [.nil, .boolean true], rfl⟩

end World
end ScriptPool
