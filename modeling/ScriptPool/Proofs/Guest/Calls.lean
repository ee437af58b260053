import ScriptPool.Convert.Codecs
import ScriptPool.Proofs.Guest.Evaluation
import ScriptPool.Proofs.World

/-!
# What conversions and calls do to the world

A conversion adds to the heap of the state it works on, or gives out a handle; a codec may do more
to that state.  A call of a function evaluates it, if it is one of the guest, and otherwise what it
does is in the calls that it makes.  So whatever relation between worlds allows for evaluation, for
growing heaps, for codecs and for handles, allows for all of that.

The relation may allow for it in certain states only.  Then that is enough for what is done in one
of them, as long as no function of another state is good: one that is not does nothing when it is
called.

## What is here

* `GuestState.Growth` — one thing that a conversion adds to a heap.
* `Codec.Grows` — codecs that only do such things, as the stock codecs.
* `HandsOut`, `TakesIn`, `Serves` — a relation between worlds that allows for what conversions out
  of a guest, conversions into one, and conversions and calls altogether, consist of; `Admits`, if
  besides that the account may be changed at will.
* `keeps_fromValueAt`, `keeps_toValueAt` — conversions.
* `keeps_callsWithin` — **calls of functions**, of the guest and of the host and nested in each
  other, by induction on how deeply they may be nested.
-/

set_option autoImplicit false

namespace ScriptPool

open Relation

/-! ## What a relation has to allow for

The conditions come in three steps, as conversions out of a guest need less than those into one, and
these need less than calls.  A relation is shown to meet them once, and then holds of everything
that is built from these pieces. -/

/-- A value that conversions carry in userdata. -/
def Value.IsOpaque : Value → Prop
  | .error _ => True
  | .channel _ => True
  | .custom _ => True
  | _ => False

namespace GuestState

/-- Something that a conversion adds to the heap of a state. -/
inductive Growth (g : GuestState) : GuestState → Prop where
  | newTable (t : GuestTable) : g.Growth (g.newTable t).2
  | marker : g.Growth g.arrayMarkerTable.2
  | newFunction (f : Closure) : g.Growth (g.newFunction f).2
  | carry (v : Value) (h : v.IsOpaque) : g.Growth (g.newUserdata (.carrier v)).2

/-- Additions one after the other. -/
abbrev Grows : GuestState → GuestState → Prop := ReflTransGen Growth

end GuestState

/-- Encoding a custom value does to a guest state what other conversions do: it adds to the heap. -/
def Codec.Grows (codec : Codec) : Prop :=
  ∀ (custom : Custom) (g : GuestState), g.Grows (codec.encode custom g).2

namespace Codec

theorem grows_encodePair (tag : String) (custom : Custom) (g : GuestState) :
    g.Grows (encodePair tag custom g).2 := by
  rw [encodePair]
  split
  · exact .head (.newTable _) (.single (.newTable _))
  · exact .refl

theorem grows_pair (tag : String) : (pair tag).Grows := grows_encodePair tag

theorem grows_text (tag : String) : (text tag).Grows := fun _ _ => .refl

end Codec

/-- Every guest state. -/
abbrev Everywhere : Nat → Prop := fun _ => True

/-- A relation between worlds allows for giving out handles, which is all that conversions out of a
guest do to the world.  Functions of certain states are handed out, in their present scopes. -/
structure HandsOut (P : Nat → Prop) (R : World → World → Prop) : Prop where
  wrap : ∀ (w : World) (f : GuestFunction), P f.state → f.issued = (w.state f.state).epoch →
    R w (w.newFunction (.guest f)).2
  handle : ∀ w : World, R w w.newHandle.2

/-- A relation between worlds allows for what conversions into certain states consist of. -/
structure TakesIn (P : Nat → Prop) (R : World → World → Prop) : Prop where
  grow : ∀ (w : World) (s : Nat) (g : GuestState), P s → (w.state s).Grows g → R w (w.setState s g)
  encode : ∀ (w : World) (s : Nat) (codec : Codec) (custom : Custom), P s → codec ∈ w.codecs →
    R w (w.setState s (codec.encode custom (w.state s)).2)

/-- A relation between worlds allows for what conversions and calls of functions consist of, in
certain states. -/
structure Admits (P : Nat → Prop) (R : World → World → Prop) : Prop
    extends HandsOut P R, TakesIn P R where
  evaluate : ∀ s, P s → Permits R s
  /-- A function of the host remembers its calls. -/
  record : ∀ (w : World) (h : Handle) (f : HostFunction) (args : List Value),
    w.functions[h]? = some (.host f) →
      R w { w with
        functions := w.functions.setIfInBounds h (.host { f with calls := f.calls ++ [args] }) }
  /-- Nothing is said of a world in which a function of another state is good. -/
  apart : ∀ (w w' : World) (h : Handle) (f : GuestFunction), ¬ P f.state →
    w.functions[h]? = some (.guest f) → w.isLive f = true → R w w' := by
      exact fun _ _ _ _ hP => absurd trivial hP

/-- A relation between worlds allows for what conversions and calls of functions consist of, in
certain states, with their accounts as they should be. -/
structure Serves (P : Nat → Prop) (R : World → World → Prop) : Prop
    extends HandsOut P R, TakesIn P R where
  evaluate : ∀ s, P s → Evaluates R s
  record : ∀ (w : World) (h : Handle) (f : HostFunction) (args : List Value),
    w.functions[h]? = some (.host f) →
      R w { w with
        functions := w.functions.setIfInBounds h (.host { f with calls := f.calls ++ [args] }) }
  apart : ∀ (w w' : World) (h : Handle) (f : GuestFunction), ¬ P f.state →
    w.functions[h]? = some (.guest f) → w.isLive f = true → R w w' := by
      exact fun _ _ _ _ hP => absurd trivial hP

variable {P : Nat → Prop} {R : World → World → Prop}

theorem Admits.serves [IsPreorder World R] (h : Admits P R) : Serves P R where
  toHandsOut := h.toHandsOut
  toTakesIn := h.toTakesIn
  evaluate s hs := (h.evaluate s hs).evaluates
  record := h.record
  apart := h.apart

variable [IsPreorder World R]

/-! ## Conversions into a guest -/

namespace Converter

variable (c : Converter) (s : Nat)

omit [IsPreorder World R] in
theorem keeps_onState (hR : TakesIn P R) (hs : P s) {α : Type} {f : GuestState → α × GuestState}
    (h : ∀ g : GuestState, g.Grows (f g).2) : Keeps R (Conversion.onState s f) :=
  fun w => hR.grow w s _ hs (h (w.state s))

omit [IsPreorder World R] in
theorem keeps_carry (hR : TakesIn P R) (hs : P s) {v : Value} (hv : v.IsOpaque) :
    Keeps R (carry s v) :=
  keeps_onState s hR hs fun _ => .single (.carry v hv)

theorem keeps_functionFromValue (hR : TakesIn P R) (hs : P s) (f : FunctionValue) :
    Keeps R (c.functionFromValue s f) := by
  have htrampoline : Keeps R (functionFromValue.trampoline c s f) :=
    (keeps_onState s hR hs fun _ => .single (.newFunction _)).bind fun _ => keeps_pure _
  refine keeps_get_bind fun w => ?_
  split
  · exact (keeps_pure _).ite htrampoline w
  · exact htrampoline w

omit [IsPreorder World R] in
theorem keeps_encodeCustom (hR : TakesIn P R) (hs : P s) (custom : Custom) :
    Keeps R (c.encodeCustom s custom) := by
  refine keeps_get_bind fun w => ?_
  split
  · exact keeps_carry s hR hs (v := .custom custom) trivial w
  · rename_i codec hcodec
    obtain ⟨k, -, hk⟩ := Option.bind_eq_some_iff.1 hcodec
    have hset := hR.encode w s codec custom hs (Array.mem_of_getElem? hk)
    rcases hr : codec.encode custom (w.state s) with ⟨_ | v, g⟩ <;> rwa [hr] at hset

theorem keeps_customFromValue (hR : TakesIn P R) (hs : P s) (custom : Custom) :
    Keeps R (c.customFromValue s custom) := by
  rw [customFromValue]
  split
  · exact keeps_pure _
  · exact (keeps_pure _).ite (c.keeps_encodeCustom s hR hs custom)
  · exact c.keeps_encodeCustom s hR hs custom

mutual

theorem keeps_fromValueAt (hR : TakesIn P R) (hs : P s) (remaining : Nat) :
    ∀ v : Value, Keeps R (c.fromValueAt s remaining v)
  | .nil => keeps_pure _
  | .bool _ => keeps_pure _
  | .number _ => keeps_pure _
  | .string _ => keeps_pure _
  | .array items => by
      rw [fromValueAt]
      dsimp only
      split
      · exact keeps_throw_bind _ _
      · refine (keeps_itemsFromValue hR hs _ items).bind fun values =>
          keeps_onState s hR hs fun g => ?_
        split
        · exact .head .marker (.single (.newTable _))
        · exact .single (.newTable _)
  | .object fields => by
      rw [fromValueAt]
      dsimp only
      split
      · exact keeps_throw_bind _ _
      · exact (keeps_fieldsFromValue hR hs _ fields).bind fun values =>
          keeps_onState s hR hs fun g => .single (.newTable _)
  | .function f => c.keeps_functionFromValue s hR hs f
  | .error e => keeps_carry s hR hs trivial
  | .channel ch => keeps_carry s hR hs trivial
  | .custom custom => c.keeps_customFromValue s hR hs custom

theorem keeps_itemsFromValue (hR : TakesIn P R) (hs : P s) (remaining : Nat) :
    ∀ items : List Value, Keeps R (c.itemsFromValue s remaining items)
  | [] => keeps_pure _
  | v :: rest =>
      (keeps_fromValueAt hR hs remaining v).bind fun _ =>
        (keeps_itemsFromValue hR hs remaining rest).bind fun _ => keeps_pure _

theorem keeps_fieldsFromValue (hR : TakesIn P R) (hs : P s) (remaining : Nat) :
    ∀ fields : List (String × Value), Keeps R (c.fieldsFromValue s remaining fields)
  | [] => keeps_pure _
  | (_, v) :: rest =>
      (keeps_fromValueAt hR hs remaining v).bind fun _ =>
        (keeps_fieldsFromValue hR hs remaining rest).bind fun _ => keeps_pure _

end

/-! ## Conversions out of a guest -/

omit [IsPreorder World R] in
theorem keeps_wrapFunction (hR : HandsOut P R) (hs : P s) (id : Nat) :
    Keeps R (c.wrapFunction s id) := fun w => hR.wrap w _ hs rfl

omit [IsPreorder World R] in
theorem keeps_newCustom (hR : HandsOut P R) (tag : String) (payload : Payload) :
    Keeps R (newCustom tag payload) := fun w => hR.handle w

theorem keeps_offer (v : GuestValue) (codecs : List (String × Nat)) :
    Keeps R (offer s v codecs) := by
  induction codecs with
  | nil => exact keeps_pure _
  | cons entry rest ih =>
    refine keeps_get_bind fun w => ?_
    split
    · exact ih w
    · split
      · exact keeps_throw _ w
      · exact keeps_pure _ w
      · exact ih w

theorem keeps_ofGuest {α : Type} (r : Except GuestFault α) : Keeps R (Conversion.ofGuest r) := by
  cases r with
  | ok a => exact keeps_pure a
  | error f => exact keeps_throw _

theorem keeps_leafToValue (hR : HandsOut P R) (hs : P s) (v : GuestValue) :
    Keeps R (c.leafToValue s v) := by
  cases v with
  | string bytes =>
    rw [leafToValue]
    split
    · exact keeps_pure _
    · exact keeps_newCustom hR _ _
  | function id => exact c.keeps_wrapFunction s hR hs id
  | object o =>
    cases o with
    | userdata id =>
      refine keeps_get_bind fun w => ?_
      split
      · exact keeps_pure _ w
      · refine (keeps_offer s _ _).bind (fun claimed => ?_) w
        cases claimed with
        | some claim => exact keeps_newCustom hR _ _
        | none => exact keeps_newCustom hR _ _
    | _ => exact keeps_newCustom hR _ _
  | _ => exact keeps_pure _

section Entries

variable {convert : GuestValue → Conversion Value} (h : ∀ v, Keeps R (convert v))

include h

theorem keeps_placedItems (entries : List (GuestValue × GuestValue)) :
    Keeps R (placedItems convert entries) := by
  induction entries with
  | nil => exact keeps_pure _
  | cons entry rest ih =>
    rw [placedItems]
    split
    · exact (h _).bind fun _ => ih.bind fun _ => keeps_pure _
    · exact ih

theorem keeps_namedFields (entries : List (GuestValue × GuestValue)) :
    ∀ sofar, Keeps R (namedFields convert sofar entries) := by
  induction entries with
  | nil => exact fun _ => keeps_pure _
  | cons entry rest ih =>
    intro sofar
    rw [namedFields]
    refine (keeps_liftM _).bind fun name => ?_
    dsimp only
    split
    · exact keeps_throw_bind _ _
    · exact (h _).bind fun _ => ih _

theorem keeps_entriesToValue (entries : List (GuestValue × GuestValue)) :
    Keeps R (entriesToValue convert entries) := by
  rw [entriesToValue]
  split
  · exact (keeps_placedItems h entries).bind fun _ => keeps_pure _
  · exact (keeps_namedFields h entries []).bind fun _ => keeps_pure _

end Entries

theorem keeps_tableToValue (remaining : Nat) (path : List Nat)
    {descend : List Nat → GuestValue → Conversion Value}
    (h : ∀ path v, Keeps R (descend path v)) (id : Nat) :
    Keeps R (c.tableToValue s remaining path descend id) := by
  rw [tableToValue]
  dsimp only
  split
  · exact keeps_throw_bind _ _
  · split
    · exact keeps_throw_bind _ _
    · refine keeps_get_bind fun w => ?_
      split
      · exact (keeps_ofGuest _).bind (fun _ => keeps_pure _) w
      · exact keeps_entriesToValue (h _) _ w

theorem keeps_toValueAt (hR : HandsOut P R) (hs : P s) (remaining : Nat) :
    ∀ path v, Keeps R (c.toValueAt s remaining path v) := by
  induction remaining with
  | zero =>
    intro path v
    cases v with
    | table id =>
      rw [toValueAt]
      refine (keeps_offer s _ _).bind fun claimed => ?_
      cases claimed with
      | some claim => exact keeps_newCustom hR _ _
      | none => exact c.keeps_tableToValue s 0 path (fun _ _ => keeps_pure _) id
    | _ => exact c.keeps_leafToValue s hR hs _
  | succ left ih =>
    intro path v
    cases v with
    | table id =>
      rw [toValueAt]
      refine (keeps_offer s _ _).bind fun claimed => ?_
      cases claimed with
      | some claim => exact keeps_newCustom hR _ _
      | none => exact c.keeps_tableToValue s (left + 1) path ih id
    | _ => exact c.keeps_leafToValue s hR hs _

theorem keeps_allToValue (hR : HandsOut P R) (hs : P s) (vs : List GuestValue) :
    Keeps R (c.allToValue s vs) := by
  induction vs with
  | nil => exact keeps_pure _
  | cons v rest ih =>
    exact (c.keeps_toValueAt s hR hs c.maxDepth [] v).bind fun _ => ih.bind fun _ => keeps_pure _

theorem keeps_allFromValue (hR : TakesIn P R) (hs : P s) (vs : List Value) :
    Keeps R (c.allFromValue s vs) := by
  induction vs with
  | nil => exact keeps_pure _
  | cons v rest ih =>
    exact (c.keeps_fromValueAt s hR hs c.maxDepth v).bind fun _ => ih.bind fun _ => keeps_pure _

end Converter

/-! ## Calls

Calls nest: a function of the guest calls one of the host, which calls back.  The induction is on
the number of calls that may still be nested in each other. -/

namespace Execution

variable {calls : Calls}

/-- What a function of the host does is in its calls. -/
theorem keeps_hostAction {call : FunctionValue → List Value → Execution HostOutcome}
    (h : ∀ f args, Keeps R (call f args)) (action : HostAction) : Keeps R (action.run call) := by
  induction action with
  | finish outcome => exact keeps_pure _
  | invoke f args resume ih =>
    rw [HostAction.run]
    refine (h f args).bind fun outcome => ?_
    cases outcome with
    | returned result => exact ih result
    | panicked message => exact keeps_pure _

theorem keeps_trampoline (hR : Serves P R) (hvalue : ∀ f args, Keeps R (calls.value f args))
    {s : Nat} (hs : P s) (target : FunctionValue) (c : Converter) (args : List GuestValue) :
    Keeps R (trampoline calls s target c args) := by
  refine (keeps_convert (c.keeps_allToValue s hR.toHandsOut hs args)).bind fun values => ?_
  cases values with
  | error e => exact keeps_pure _
  | ok values =>
    refine (hvalue target values).bind fun outcome => ?_
    split
    · exact keeps_pure _
    · refine (keeps_convert (c.keeps_fromValueAt s hR.toTakesIn hs c.maxDepth _)).bind
        fun result => ?_
      cases result with
      | ok v => exact keeps_pure _
      | error e => exact keeps_pure _

theorem keeps_applyGuest (hR : Serves P R) (hguest : ∀ s, P s → calls.Keep R s) {f : GuestFunction}
    (hs : P f.state) (args : List Value) : Keeps R (applyGuest calls f args) := by
  refine keeps_get_bind fun w => ?_
  split
  · exact keeps_pure _ w
  · refine (keeps_convert (f.converter.keeps_allFromValue f.state hR.toTakesIn hs args)).bind
      (fun values => ?_) w
    cases values with
    | error e => exact keeps_pure _
    | ok values =>
      refine (keeps_guarded (hguest _ hs _ _ _)).bind fun results => ?_
      cases results with
      | error thrown => exact (keeps_faultOf (hguest _ hs)).bind fun _ => keeps_pure _
      | ok results =>
        refine (keeps_convert (f.converter.keeps_toValueAt f.state hR.toHandsOut hs _ [] _)).bind
          fun v => ?_
        cases v with
        | ok v => exact keeps_pure _
        | error e => exact keeps_pure _

/-- A function whose scope is over runs nothing. -/
theorem run_applyGuest_stale {g : GuestFunction} {w : World} (h : w.isLive g = false) (calls : Calls)
    (args : List Value) :
    (applyGuest calls g args).run.run w = (.ok (.error staleFunction), w) := by
  show ((if !w.isLive g then pure (.error staleFunction) else _ :
    Execution (Except CallError Value))).run.run w = _
  rw [h]
  rfl

theorem keeps_applyValue (hR : Serves P R) (hguest : ∀ s, P s → calls.Keep R s)
    (hvalue : ∀ f args, Keeps R (calls.value f args)) (f : FunctionValue) (args : List Value) :
    Keeps R (applyValue calls f args) := by
  refine keeps_get_bind fun w => ?_
  split
  · exact keeps_pure _ w
  · rename_i h hf
    -- the call is recorded first
    exact trans_of R (hR.record w f.handle h args hf)
      (keeps_hostAction hvalue (h.respond h.calls args) _)
  · rename_i g hg
    by_cases hs : P g.state
    · exact ((keeps_applyGuest hR hguest hs args).bind fun _ => keeps_pure _) w
    · cases hlive : w.isLive g with
      | true => exact hR.apart w _ f.handle g hs hg hlive
      | false =>
        rw [ExceptT.run_bind, StateT.run_bind, run_applyGuest_stale hlive]
        exact refl_of R w

end Execution

/-- **However deeply calls are nested**, all they do is what conversions and evaluation do. -/
theorem keeps_callsWithin (hR : Serves P R) (depth : Nat) :
    (∀ s, P s → (callsWithin depth).Keep R s)
      ∧ ∀ f args, Keeps R ((callsWithin depth).value f args) := by
  induction depth with
  | zero => exact ⟨fun _ _ _ _ _ => keeps_throw _, fun _ _ => keeps_pure _⟩
  | succ depth ih =>
    obtain ⟨hguest, hvalue⟩ := ih
    refine ⟨fun s hs chunk f args => ?_, Execution.keeps_applyValue hR hguest hvalue⟩
    exact Execution.keeps_applyFunction (hR.evaluate s hs) (hguest s hs)
      (fun w _ target c args _ => Execution.keeps_trampoline hR hvalue hs target c args w)
      chunk f args

end ScriptPool
