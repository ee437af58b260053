import ScriptPool.Host.Stock
import ScriptPool.Proofs.Interpreter.Functions

/-!
# Functions of the host by way of a guest

A function of the host that is put into a guest becomes a function there that calls it, and if that
one is handed to the host, every call of it goes into the guest and out again.  Two bridges are
passed on the way, and each has its own way to report a failure: the guest is given two results,
`nil` and a message, and the host looks at the first result of what it calls.  So arguments and
results come through equal, but all that comes through of a failure is the `nil`.

## What is here

* `Value.arrived` — what a value is that has been in a guest.
* `World.Remembers` — functions of the host stay what they are, and remember their calls.
* `World.Answers` — how a function answers a call that is made by way of a guest.
* `Converter.Fails` — the ways in which it can fail, for a guest that waits for the result.
* `World.LosesFailures`, `World.Relays` — what becomes of failures, and of arguments and results.
* `relays_of_becomes` — **a function of the host that has been through a guest calls the same
  function once, with equal arguments, and gives an equal result, but `nil` for a failure**.
-/

set_option autoImplicit false

namespace ScriptPool

/-! ## Values that have been in a guest -/

/-- What a value is that has been in a guest: its numbers are what they are there. -/
def Value.arrived (x : Value) : Value := x.normBy settled

/-- A value arrives equal, if there is no `nil` in its aggregates. -/
theorem Value.same_arrived {x : Value} (hx : x.IsData) (hwhole : x.Whole) :
    x.arrived.same x = true := by
  have hnumbers : ∀ y : Float, y.isNaN = false → (settled y == id y) = true := fun _ => settled_beq
  have hsame := same_normBy hnumbers hx
  rwa [normBy_id hwhole] at hsame

namespace World

/-! ## Functions of the host

A function of the host stays in its place for good, and only the notes of its calls grow.  So what
is known of one when it is put into a guest can be used when it is called, however much later that
is. -/

/-- Functions of the host are what they were, and remember what else they have been called with. -/
def Remembers (w w' : World) : Prop := ∀ (i : Handle) (h : HostFunction),
  w.functions[i]? = some (.host h) →
    ∃ more, w'.functions[i]? = some (.host { h with calls := h.calls ++ more })

/-- A call of a function of the host is noted. -/
def noteCall (w : World) (i : Handle) (h : HostFunction) (args : List Value) : World :=
  { w with functions := w.functions.setIfInBounds i (.host { h with calls := h.calls ++ [args] }) }

variable {u v w w' : World} {i : Handle} {h : HostFunction} {f f' : FunctionValue}
  {args : List Value}

theorem remembers_of_functions (h : ∀ (i : Handle) (f : HostFunction),
    w.functions[i]? = some (.host f) → w'.functions[i]? = some (.host f)) : w.Remembers w' :=
  fun i f hf => ⟨[], by rw [List.append_nil]; exact h i f hf⟩

instance : IsPreorder World Remembers where
  refl _ := remembers_of_functions fun _ _ h => h
  trans _ _ _ h h' i f hf := by
    obtain ⟨more, hf⟩ := h i f hf
    obtain ⟨others, hf⟩ := h' i _ hf
    exact ⟨more ++ others, by rw [hf, List.append_assoc]⟩

theorem remembers_newFunction (w : World) (f : Callable) : w.Remembers (w.newFunction f).2 :=
  remembers_of_functions fun _ _ h => GuestState.getElem?_push_of_some h

theorem getElem?_noteCall (hf : w.functions[i]? = some (.host h)) :
    (w.noteCall i h args).functions[i]? = some (.host { h with calls := h.calls ++ [args] }) := by
  obtain ⟨hlt, -⟩ := Array.getElem?_eq_some_iff.1 hf
  exact Array.getElem?_setIfInBounds_self_of_lt hlt

theorem remembers_noteCall (hf : w.functions[i]? = some (.host h)) :
    w.Remembers (w.noteCall i h args) := by
  intro j f hj
  by_cases heq : i = j
  · obtain rfl := heq
    obtain rfl : h = f := by simpa [hf] using hj
    exact ⟨[args], getElem?_noteCall hf⟩
  · refine ⟨[], ?_⟩
    show (w.functions.setIfInBounds i _)[j]? = _
    rw [Array.getElem?_setIfInBounds_ne heq, hj, List.append_nil]

theorem admits_remembers : Admits Everywhere Remembers where
  evaluate _ _ := ⟨fun _ _ _ => remembers_of_functions fun _ _ h => h⟩
  grow _ _ _ _ _ := remembers_of_functions fun _ _ h => h
  encode _ _ _ _ _ _ := remembers_of_functions fun _ _ h => h
  wrap w _ _ _ := w.remembers_newFunction _
  handle _ := remembers_of_functions fun _ _ h => h
  record _ _ _ _ hf := remembers_noteCall hf

theorem remembers_newLimitedState (limits : ResourceLimits) :
    Transition.Keeps Remembers (newLimitedState limits) := by
  rw [newLimitedState]
  split
  · exact Transition.keeps_pure _
  · exact Transition.keeps_get_bind fun w => remembers_of_functions fun _ _ h => h

/-- **Functions of the host stay what they are**, whatever becomes of the world. -/
theorem Becomes.remembers {ended : List Nat} (h : u.Becomes ended w) : u.Remembers w := by
  induction h with
  | refl => exact refl_of Remembers u
  | step _ d ih =>
    refine trans_of Remembers ih (d.keeps admits_remembers.hosts remembers_newLimitedState ?_ ?_)
    · exact fun w _ => w.remembers_newFunction _
    · exact fun _ _ _ => remembers_of_functions fun _ _ h => h
  | ends _ s ih => exact trans_of Remembers ih (remembers_of_functions fun _ _ h => h)

/-- How a function answers a call that is made from inside two others, as one by way of a guest is.
-/
def Answers (w : World) (f : FunctionValue) (args : List Value) (outcome : HostOutcome)
    (w' : World) : Prop :=
  ((callsWithin (callDepth - 2)).value f args).run.run w = (.ok outcome, w')

/-- A function of the host is called: that is noted, and then it does what it does. -/
theorem run_value_host (hf : w.functions[f.handle]? = some (.host h)) (depth : Nat) :
    ((callsWithin (depth + 1)).value f args).run.run w
      = ((h.respond h.calls args).run (callsWithin depth).value).run.run
        (w.noteCall f.handle h args) := by
  have hget : (get : Execution World).run.run w = (.ok w, w) := rfl
  show (Execution.applyValue (callsWithin depth) f args).run.run w = _
  rw [Execution.applyValue, Execution.run_bind_ok hget, hf]
  rfl

/-- A function of the host that calls no others answers in the same way wherever it is called. -/
theorem run_value_finish (hf : w.functions[f.handle]? = some (.host h)) {outcome : HostOutcome}
    (hfinish : h.respond h.calls args = .finish outcome) (depth : Nat) :
    ((callsWithin (depth + 1)).value f args).run.run w
      = (.ok outcome, w.noteCall f.handle h args) := by
  rw [run_value_host hf, hfinish]
  rfl

theorem answers_of_finish (hf : w.functions[f.handle]? = some (.host h)) {outcome : HostOutcome}
    (hfinish : h.respond h.calls args = .finish outcome) :
    w.Answers f args outcome (w.noteCall f.handle h args) :=
  run_value_finish hf hfinish (callDepth - 3)

/-- However a function of the host answers, the call was noted first. -/
theorem Answers.calls (hf : w.functions[f.handle]? = some (.host h)) {outcome : HostOutcome}
    (hanswers : w.Answers f args outcome w') : ∃ more,
    w'.functions[f.handle]? = some (.host { h with calls := h.calls ++ args :: more }) := by
  have hkeeps : (w.noteCall f.handle h args).Remembers
      (((callsWithin (callDepth - 2)).value f args).run.run w).2 := by
    have hdepth : callDepth - 2 = callDepth - 3 + 1 := rfl
    rw [hdepth, run_value_host hf]
    exact Execution.keeps_hostAction (keeps_callsWithin admits_remembers.serves (callDepth - 3)).2 _ _
  rw [hanswers] at hkeeps
  obtain ⟨more, hmore⟩ := hkeeps _ _ (getElem?_noteCall hf)
  exact ⟨more, by simpa using hmore⟩

/-- Nothing has been called, and no handle of a function been given out. -/
def SameFunctions (w w' : World) : Prop := w'.functions = w.functions

instance : IsPreorder World SameFunctions where
  refl _ := rfl
  trans _ _ _ h h' := h'.trans h

theorem takesIn_sameFunctions : TakesIn Everywhere SameFunctions :=
  ⟨fun _ _ _ _ _ => rfl, fun _ _ _ _ _ _ => rfl⟩

end World

/-! ## Calls by the guest

There are two cases of what the guest gets: the result of the function, or `nil` and a message.
Everything that can go wrong belongs to the second one. -/

namespace Converter

variable {c : Converter} {s room : Nat} {w : World} {items : List Value}

/-- Arguments go in as the elements of an array do. -/
theorem allFromValue_eq : c.allFromValue s items = c.itemsFromValue s c.maxDepth items := by
  induction items with
  | nil => rw [allFromValue, itemsFromValue]
  | cons x rest ih => rw [allFromValue, itemsFromValue, ih]; rfl

/-- What was put in comes out again. -/
theorem allToValue_on {values : List GuestValue}
    (h : StandForAll c s (w.state s) room items values) (hroom : room ≤ c.maxDepth) :
    (c.allToValue s values).on w = (.ok (items.map Value.arrived), w) := by
  induction h with
  | nil => rfl
  | cons hx _ ih =>
    have hread : (c.toValue s _).on w = _ :=
      hx.reads w c.maxDepth [] (.refl _) hroom fun _ h => absurd h List.not_mem_nil
    rw [allToValue, Conversion.on_bind_ok hread, Conversion.on_bind_ok ih]
    rfl

/-- A text comes out as it is. -/
theorem toValue_ofString (text : String) :
    (c.toValue s (.ofString text)).on w = (.ok (.string text), w) := by
  have hleaf : (c.toValue s (.ofString text)).on w = (c.leafToValue s (.ofString text)).on w :=
    on_toValueAt_leaf fun id h => by cases h
  rw [hleaf, GuestValue.ofString, leafToValue, GuestValue.fromUTF8?_toUTF8]
  rfl

/-- A call of a function of the host has failed, for a guest that waits for the result: the function
has failed, has given an error value or has broken down, or what it has given cannot be converted.
With the message, and the world after that. -/
inductive Fails (c : Converter) (s : Nat) (outcome : HostOutcome) (w : World) :
    String → World → Prop where
  | reply {message : String} (h : outcome.reply = .error message) : Fails c s outcome w message w
  | result {x : Value} {e : ConvertError} {w' : World} (h : outcome.reply = .ok x)
      (hx : (c.fromValue s x).on w = (.error e, w')) : Fails c s outcome w e.message w'

end Converter

/-- What is no error value is passed on. -/
theorem HostOutcome.reply_ok {x : Value} (hx : ∀ e, x ≠ .error e) :
    HostOutcome.reply (.returned (.ok x)) = .ok x := by
  cases x with
  | error e => exact absurd rfl (hx e)
  | _ => rfl

namespace Execution

variable {calls : Calls} {c : Converter} {s : Nat} {f : FunctionValue} {args : List GuestValue}
  {values : List Value} {outcome : HostOutcome} {w w₁ w₂ w₃ : World}
  (hargs : (c.allToValue s args).on w = (.ok values, w₁))
  (hcall : (calls.value f values).run.run w₁ = (.ok outcome, w₂))

include hargs hcall

/-- The guest gets the result. -/
theorem run_trampoline_returns {x : Value} {result : GuestValue} (hreply : outcome.reply = .ok x)
    (hx : (c.fromValue s x).on w₂ = (.ok result, w₃)) :
    (trampoline calls s f c args).run.run w = (.ok [result], w₃) := by
  rw [trampoline, run_convert_bind hargs]
  dsimp only
  rw [run_bind_ok hcall, hreply]
  dsimp only
  rw [answer, run_convert_bind hx]
  rfl

/-- The guest gets `nil` and a message for a failure. -/
theorem run_trampoline_fails {message : String} (h : c.Fails s outcome w₂ message w₃) :
    (trampoline calls s f c args).run.run w = (.ok [.nil, .ofString message], w₃) := by
  rw [trampoline, run_convert_bind hargs]
  dsimp only
  rw [run_bind_ok hcall]
  cases h with
  | reply hreply =>
    rw [hreply]
    rfl
  | result hreply hx =>
    rw [hreply]
    dsimp only
    rw [answer, run_convert_bind hx]
    rfl

end Execution

/-! ## Calls by way of the guest

A call passes a bridge into the guest and another one back, and the two are put together from what
each of them does by itself.  Between them stands a world in which arguments have been converted,
but nothing has been called. -/

namespace World

open Converter Execution

variable {u v w w' : World} {c : Converter} {s k : Nat} {f f' : FunctionValue} {h : HostFunction}
  {args : List Value} {values : List GuestValue}

/-- A function of the guest calls a function, and the host has a handle of it that is good. -/
structure Wraps (w : World) (c : Converter) (s k : Nat) (f f' : FunctionValue) : Prop where
  closure : (w.state s).functions[k]? = some (.trampoline f c)
  handle : w.guestFunction? f' = some ⟨s, k, c, (w.state s).epoch⟩

/-- A function of the host is put into a guest and handed back. -/
theorem wraps_of_trip (hs : s < u.states.size) (hf : u.functions[f.handle]? = some (.host h)) :
    ∃ k u₁ f' u₂, (fromValue c s (.function f)).run u = (.ok (.function k), u₁)
      ∧ (toValue c s (.function k)).run u₁ = (.ok (.function f'), u₂)
      ∧ u₂.states.size = u.states.size ∧ u₂.Wraps c s k f f' := by
  have hnone : u.guestFunction? f = none := by rw [guestFunction?, hf]
  have hin : (fromValue c s (.function f)).run u = (.ok (.function (u.state s).functions.size),
      u.setState s ((u.state s).newFunction (.trampoline f c)).2) := by
    show (c.functionFromValue s f).on u = _
    rw [functionFromValue, Conversion.on_get_bind, hnone]
    rfl
  have hout : ∀ (k : Nat) (w : World), (toValue c s (.function k)).run w
      = (c.wrapFunction s k).on w := fun k w => on_toValueAt_leaf fun id h => by cases h
  refine ⟨_, _, _, _, hin, hout _ _, u.size_setState s _, ?_, ?_⟩
  · show ((u.setState s _).state s).functions[_]? = _
    rw [state_setState hs]
    exact Array.getElem?_push_size
  · exact guestFunction?_eq_some.2 Array.getElem?_push_size

/-- That stays so until the scope is over. -/
theorem Wraps.of_becomes (hwraps : u.Wraps c s k f f') (hs : s < u.states.size) (hu : u.IsCareful)
    {ended : List Nat} (hbecomes : u.Becomes ended w) (hscope : s ∉ ended) :
    w.Wraps c s k f f' := by
  have hfollows := hbecomes.follows hu
  have hepoch := hfollows.epoch s hs
  rw [List.count_eq_zero.2 hscope, Nat.add_zero] at hepoch
  exact ⟨hfollows.closures s k _ hwraps.closure, hepoch ▸ hfollows.guestFunction? hwraps.handle⟩

section Wrapped

variable {given : List Value} {v₁ v' w' : World} {outcome : HostOutcome}
  (hwraps : w.Wraps c s k f f') (hw : w.IsCareful)
  (hin : (c.allFromValue s args).on w = (.ok values, v))
  (hout : (c.allToValue s values).on v = (.ok given, v₁))
  (hanswers : v₁.Answers f given outcome v')

include hwraps hw hin

/-- What the function of the guest gives for its arguments is what the bridge gives. -/
theorem Wraps.run_guest {results : List GuestValue}
    (h : (trampoline (callsWithin (callDepth - 2)) s f c values).run.run v = (.ok results, w')) :
    ((callsWithin (callDepth - 1)).guest none s k values).run.run v = (.ok results, w') := by
  have habides : w.Abides ((c.allFromValue s args).on w).2 :=
    c.keeps_allFromValue s admits_abides.toTakesIn trivial args w
  rw [hin] at habides
  have hclosure := ((habides hw).1.state s).functions k _ hwraps.closure
  show (applyFunction (callsWithin (callDepth - 2)) none s k values).run.run v = _
  rw [applyFunction, run_stateOf_bind, hclosure]
  exact h

/-- And the host gets the first of the results. -/
theorem Wraps.run_call {results : List GuestValue} {r : Except ConvertError Value} {w'' : World}
    (h : (trampoline (callsWithin (callDepth - 2)) s f c values).run.run v = (.ok results, w'))
    (hresult : (c.toValue s (results.headD .nil)).on w' = (r, w'')) :
    (call f' args).run w = (.returned (r.mapError .conversion), w'') :=
  (works_of_isLive hwraps.handle (isLive_iff.2 rfl)).returns hin
    (hwraps.run_guest hw hin h) hresult

include hout hanswers

/-- A result is converted into the guest and out again. -/
theorem Wraps.call_returns {x y : Value} {result : GuestValue} {w'' : World}
    (hreply : outcome.reply = .ok x) (hx : (c.fromValue s x).on v' = (.ok result, w'))
    (hy : (c.toValue s result).on w' = (.ok y, w'')) :
    (call f' args).run w = (.returned (.ok y), w'') :=
  hwraps.run_call hw hin (run_trampoline_returns hout hanswers hreply hx) hy

/-- Of a failure, the guest is told why, and the host gets `nil`. -/
theorem Wraps.call_fails {message : String} (hfails : c.Fails s outcome v' message w') :
    ((callsWithin (callDepth - 1)).guest none s k values).run.run v
        = (.ok [.nil, .ofString message], w')
      ∧ (call f' args).run w = (.returned (.ok .nil), w') := by
  have hrun := run_trampoline_fails hout hanswers hfails
  exact ⟨hwraps.run_guest hw hin hrun,
    hwraps.run_call hw hin hrun (on_toValueAt_leaf fun id h => by cases h)⟩

end Wrapped

/-- When a call that gets to the function fails, the guest is told why and the caller gets `nil`. -/
def LosesFailures (w : World) (c : Converter) (s k : Nat) (f f' : FunctionValue) : Prop :=
  ∀ {args given : List Value} {values : List GuestValue} {v v₁ v' w' : World}
    {outcome : HostOutcome} {message : String},
    (c.allFromValue s args).on w = (.ok values, v) →
    (c.allToValue s values).on v = (.ok given, v₁) →
    v₁.Answers f given outcome v' → c.Fails s outcome v' message w' →
      ((callsWithin (callDepth - 1)).guest none s k values).run.run v
          = (.ok [.nil, .ofString message], w')
        ∧ (call f' args).run w = (.returned (.ok .nil), w')

/-- What becomes of a call by way of the guest.  The arguments have become `values` in the guest, in
the world `v`; `f` is called there, and what it gives comes through. -/
structure Relays (w : World) (c : Converter) (s : Nat) (f f' : FunctionValue) (h : HostFunction)
    (args : List Value) (values : List GuestValue) (v : World) : Prop where
  goesIn : (c.allFromValue s args).on w = (.ok values, v)
  comesOut : (c.allToValue s values).on v = (.ok (args.map Value.arrived), v)
  equal : ∀ x ∈ args, x.IsData → x.arrived.same x = true
  ready : v.Ready s
  /-- Nothing is called for that. -/
  functions : v.functions = w.functions
  /-- The function is called once, unless it calls itself. -/
  calls : ∀ {outcome : HostOutcome} {v' : World},
    v.Answers f (args.map Value.arrived) outcome v' → ∃ more, v'.functions[f.handle]?
      = some (.host { h with calls := h.calls ++ args.map Value.arrived :: more })
  returns : ∀ {x : Value} {v' : World},
    v.Answers f (args.map Value.arrived) (.returned (.ok x)) v' → (∀ e, x ≠ .error e) →
    x.Crosses → x.Whole → x.depth ≤ c.maxDepth → v'.Ready s →
      (x.IsData → x.arrived.same x = true)
        ∧ ∃ w', (call f' args).run w = (.returned (.ok x.arrived), w')
          ∧ w'.functions = v'.functions

/-- Arguments that all can cross get to the function. -/
theorem Wraps.exists_relays (hwraps : w.Wraps c s k f f') (hw : w.IsCareful)
    (hf : w.functions[f.handle]? = some (.host h)) (hc : c.codecs = []) (hready : w.Ready s)
    (hargs : ∀ x ∈ args, x.Crosses ∧ x.Whole ∧ x.depth ≤ c.maxDepth) :
    ∃ values v, w.Relays c s f f' h args values v := by
  have hdepth : Value.depthItems args ≤ c.maxDepth :=
    Value.depthItems_le_iff.2 fun x hx => (hargs x hx).2.2
  obtain ⟨values, v, hvalues, hbuilds, hall⟩ :=
    (itemsFromValue_on (fun x hx => goesIn hc (hargs x hx).1) c.maxDepth hready).1 hdepth
  have hin : (c.allFromValue s args).on w = (.ok values, v) := by rw [allFromValue_eq, hvalues]
  have hout := allToValue_on hall hdepth
  have hsame : w.SameFunctions ((c.allFromValue s args).on w).2 :=
    c.keeps_allFromValue s takesIn_sameFunctions trivial args w
  rw [hin] at hsame
  refine ⟨values, v, hin, hout, fun x hx hdata => Value.same_arrived hdata (hargs x hx).2.1,
    hbuilds.ready, hsame, fun hanswers => hanswers.calls (hsame ▸ hf), ?_⟩
  intro x v' hanswers hne hx hwhole hroom hready'
  obtain ⟨r, w', hr, -, hstands⟩ := (goesIn (s := s) hc hx c.maxDepth v' hready').1 hroom
  have hput : v'.SameFunctions ((c.fromValue s x).on v').2 :=
    c.keeps_fromValueAt s takesIn_sameFunctions trivial _ _ v'
  have hr' : (c.fromValue s x).on v' = (.ok r, w') := hr
  rw [hr'] at hput
  have hread : (c.toValue s r).on w' = (.ok x.arrived, w') :=
    hstands.reads w' c.maxDepth [] (.refl _) hroom fun _ h => absurd h List.not_mem_nil
  exact ⟨fun hdata => Value.same_arrived hdata hwhole, w',
    hwraps.call_returns hw hin hout hanswers (HostOutcome.reply_ok hne) hr' hread, hput⟩

/-- **Functions of the host by way of a guest.**  Put a function of the host into a guest and hand
it back to the host.  Whatever becomes of the world after that, as long as the scope of the guest
has not ended, a call of what was handed back that fails in the function gives `nil`.  If there are
no codecs and empty arrays can be marked in the guest, then data that can cross gets to the
function, which is called once and with equal arguments; and if it gives such data, the call gives
an equal value. -/
theorem relays_of_becomes (hs : s < u.states.size) (hu : u.IsCareful)
    (hf : u.functions[f.handle]? = some (.host h)) :
    ∃ k u₁ f' u₂, (fromValue c s (.function f)).run u = (.ok (.function k), u₁)
      ∧ (toValue c s (.function k)).run u₁ = (.ok (.function f'), u₂)
      ∧ ∀ ended w, u₂.Becomes ended w → s ∉ ended → ∃ earlier,
        w.functions[f.handle]? = some (.host { h with calls := h.calls ++ earlier })
          ∧ w.LosesFailures c s k f f'
          ∧ (c.codecs = [] → w.Ready s → ∀ args,
            (∀ x ∈ args, x.Crosses ∧ x.Whole ∧ x.depth ≤ c.maxDepth) → ∃ values v,
              w.Relays c s f f' { h with calls := h.calls ++ earlier } args values v) := by
  obtain ⟨k, u₁, f', u₂, hin, hout, hsize, hwraps⟩ := wraps_of_trip (c := c) hs hf
  refine ⟨k, u₁, f', u₂, hin, hout, fun ended w hbecomes hscope => ?_⟩
  have hdone : u.Becomes [] u₂ := by
    have hfirst := Becomes.refl.step (Happens.fromValue (w := u) c s (.function f))
    rw [hin] at hfirst
    have hsecond := hfirst.step (Happens.toValue (w := u₁) c s (.function k))
    rwa [hout] at hsecond
  have hall := hdone.trans hbecomes
  have hcareful := (hall.follows hu).careful
  obtain ⟨earlier, hf'⟩ := hall.remembers f.handle h hf
  have hwraps' := hwraps.of_becomes (hsize ▸ hs) (hdone.follows hu).careful hbecomes hscope
  refine ⟨earlier, hf', fun hin hout hanswers hfails => ?_, fun hc hready args => ?_⟩
  · exact hwraps'.call_fails hcareful hin hout hanswers hfails
  · exact hwraps'.exists_relays hcareful hf' hc hready

/-- A world with one guest state, and with a stock function and some codecs of the host. -/
def offering (f : StockFunction) (codecs : Array Codec) : World :=
  { untouched with functions := #[.host f.hostFunction], codecs }

theorem isCareful_offering (f : StockFunction) {codecs : Array Codec}
    (h : ∀ codec ∈ codecs, codec.IsCareful) : (offering f codecs).IsCareful :=
  ⟨h, fun s u hu => by cases s <;> exact absurd hu (Array.not_mem_empty u)⟩

/-- The first of two arguments comes back. -/
theorem relays_of_becomes_first : ∃ k u₁ f' u₂ w,
    (fromValue {} 0 (.function ⟨"f", 0⟩)).run (offering .first #[]) = (.ok (.function k), u₁)
      ∧ (toValue {} 0 (.function k)).run u₁ = (.ok (.function f'), u₂)
      ∧ (call f' [.string "tea", .bool true]).run u₂ = (.returned (.ok (.string "tea")), w) := by
  have hhost : (offering .first #[]).functions[0]?
      = some (.host StockFunction.first.hostFunction) := rfl
  obtain ⟨k, u₁, f', u₂, hin, hout, hlater⟩ := relays_of_becomes (u := offering .first #[])
    (c := {}) (s := 0) (f := ⟨"f", 0⟩) Nat.zero_lt_one (isCareful_offering _ (by simp)) hhost
  have hready : u₂.Ready 0 := by
    cases hin
    cases hout
    exact ⟨Nat.zero_lt_one, fun id hid => by cases hid⟩
  obtain ⟨earlier, hf, -, hcalls⟩ := hlater [] u₂ .refl List.not_mem_nil
  obtain ⟨values, v, hrelays⟩ := hcalls rfl hready [.string "tea", .bool true] fun x hx => by
    rcases List.mem_pair.1 hx with rfl | rfl
    · exact ⟨.string "tea", .leaf (by simp) (by simp), Nat.zero_le _⟩
    · exact ⟨.bool true, .leaf (by simp) (by simp), Nat.zero_le _⟩
  have hanswers : v.Answers ⟨"f", 0⟩ [.string "tea", .bool true]
      (.returned (.ok (.string "tea"))) _ := answers_of_finish (hrelays.functions ▸ hf) rfl
  obtain ⟨-, w, hw, -⟩ := hrelays.returns hanswers (fun e h => by cases h) (.string "tea")
    (.leaf (by simp) (by simp)) (Nat.zero_le _) ⟨hrelays.ready.lt, hrelays.ready.marks⟩
  exact ⟨k, u₁, f', u₂, w, hin, hout, hw⟩

/-- That world when the function has been put into the guest and handed back. -/
def handedBack (c : Converter) (f : StockFunction) (codecs : Array Codec) : World where
  states := #[{ functions := #[.trampoline ⟨"f", 0⟩ c] }]
  functions := #[.host f.hostFunction, .guest ⟨0, 0, c, 0⟩]
  codecs := codecs

theorem wraps_handedBack (c : Converter) (f : StockFunction) (codecs : Array Codec) :
    (handedBack c f codecs).Wraps c 0 0 ⟨"f", 0⟩ ⟨"anonymous", 1⟩ := ⟨rfl, rfl⟩

theorem isCareful_handedBack (c : Converter) (f : StockFunction) {codecs : Array Codec}
    (h : ∀ codec ∈ codecs, codec.IsCareful) : (handedBack c f codecs).IsCareful :=
  ⟨h, fun s u hu => by cases s <;> exact absurd hu (Array.not_mem_empty u)⟩

/-- What a stock function gives for some arguments by itself, and what it gives for them when it has
been through the guest. -/
def Compares (c : Converter) (f : StockFunction) (codecs : Array Codec) (args : List Value)
    (direct relayed : Except CallError Value) : Prop :=
  (∃ u, (fromValue c 0 (.function ⟨"f", 0⟩)).run (offering f codecs) = (.ok (.function 0), u)
    ∧ (toValue c 0 (.function 0)).run u
      = (.ok (.function ⟨"anonymous", 1⟩), handedBack c f codecs))
    ∧ ((call ⟨"f", 0⟩ args).run (handedBack c f codecs)).1 = .returned direct
    ∧ ((call ⟨"anonymous", 1⟩ args).run (handedBack c f codecs)).1 = .returned relayed

/-- Does a call give a custom value? -/
def givesCustom : HostOutcome → Bool
  | .returned (.ok (.custom _)) => true
  | _ => false

theorem of_givesCustom {outcome : HostOutcome} (h : givesCustom outcome = true) :
    ∃ custom, outcome = .returned (.ok (.custom custom)) := by
  unfold givesCustom at h
  split at h
  · exact ⟨_, rfl⟩
  · cases h

/-- A function that fails gives `nil` when it has been through the guest.  One that tells the zeros
apart is given another one there, and a codec that claims tables takes arrays away. -/
theorem compares_failure :
    Compares {} (.fail "out of stock") #[] [] (.error (.failed "out of stock")) (.ok .nil)
      ∧ Compares {} .concat #[] [.number (-0.0)] (.ok (.string "-0")) (.ok (.string "0"))
      ∧ ∃ custom, Compares { codecs := [("pair", 0)] } .first #[.claimTables "pair"]
        [.array [.bool true]] (.ok (.array [.bool true])) (.ok (.custom custom)) := by
  refine ⟨⟨⟨_, rfl, rfl⟩, ?_, ?_⟩, ⟨⟨_, rfl, rfl⟩, ?_, ?_⟩, ?_⟩
  · exact congrArg Prod.fst (run_call (run_value_finish rfl rfl _))
  · have hcareful := isCareful_handedBack {} (.fail "out of stock") fun codec h =>
      absurd h (Array.not_mem_empty codec)
    exact congrArg Prod.fst ((wraps_handedBack _ _ _).call_fails hcareful rfl rfl
      (answers_of_finish rfl rfl) (.reply rfl)).2
  · have htext : "-".intercalate ([.number (-0.0)].map Value.text) = "-0" := by decide +kernel
    exact congrArg Prod.fst (run_call (run_value_finish rfl
      (congrArg (HostAction.ok ∘ Value.string) htext) _))
  · have hcareful := isCareful_handedBack {} .concat fun codec h =>
      absurd h (Array.not_mem_empty codec)
    have hzero : GuestValue.ofNumber (-0.0) = .ofInt 0 := by
      have hinteger : Decimal.integer? (-0.0) = some 0 := by decide +kernel
      rw [GuestValue.ofNumber, hinteger]
      rfl
    have hin : (({} : Converter).allFromValue 0 [.number (-0.0)]).on (handedBack {} .concat #[])
        = (.ok [.ofInt 0], handedBack {} .concat #[]) := by
      rw [← hzero]
      rfl
    have htext : "-".intercalate ([.ofInt 0].map Value.text) = "0" := by decide +kernel
    exact congrArg Prod.fst ((wraps_handedBack _ _ _).call_returns hcareful hin rfl
      (answers_of_finish rfl (congrArg (HostAction.ok ∘ Value.string) htext)) rfl rfl
      (toValue_ofString _))
  · have hgives : givesCustom ((call ⟨"anonymous", 1⟩ [.array [.bool true]]).run
        (handedBack { codecs := [("pair", 0)] } .first #[.claimTables "pair"])).1 = true := by
      decide +kernel
    obtain ⟨custom, hcustom⟩ := of_givesCustom hgives
    refine ⟨custom, ⟨_, rfl, rfl⟩, ?_, hcustom⟩
    exact congrArg Prod.fst (run_call (run_value_finish rfl rfl _))

end World
end ScriptPool
