import ScriptPool.Proofs.Convert.RoundTrip
import ScriptPool.Proofs.Guest.Hops
import ScriptPool.Proofs.Interpreter.Scopes

/-!
# Objects of the guest in the hands of the host

Coroutines, light userdata and the userdata of others have no canonical form.  The host gets a
custom value for them, with the object and the state that it belongs to, and a state that is handed
such a value of its own gives the object back.  In contrast to functions
(`ScriptPool.Proofs.Interpreter.Functions`), nothing is noted about the scope that the object was
handed out in.  So it comes back after the end of that scope just as it does before, and whoever has
the interpreter by then has an object of an earlier borrower.

## What is here

* `Value.At` — what stands at a place in a value, by the path to that place in the table that the
  value becomes.
* `World.Augments` — conversions into a guest only add to its heap, if the codecs do.
* `fromValueAt_at` — **a conversion goes place by place**: what stands at a place in a value becomes
  what the conversion makes of it by itself.
* `objects_of_becomes` — **an object comes back to its own state whenever it is handed back**, at
  any place in a value and whichever scopes have ended, and other states never get it.
-/

set_option autoImplicit false

namespace ScriptPool

/-! ## Places in values -/

/-- What stands at a place in a value.  The path is the one to that place in the table that the
value becomes. -/
inductive Value.At (y : Value) : List Hop → Value → Prop where
  | here : At y [] y
  | item {items : List Value} {place : Nat} {x : Value} {path : List Hop}
      (short : items.length < 2 ^ 63) (h : items[place]? = some x) (hx : At y path x) :
      At y (.key (.ofInt ((place + 1 : Nat) : Int)) :: path) (.array items)
  | field {fields : Fields} {name : String} {x : Value} {path : List Hop}
      (sorted : fields.Sorted) (h : (name, x) ∈ fields) (hx : At y path x) :
      At y (.key (.ofString name) :: path) (.object fields)

/-! ## Conversions that only add to the heap

A table that a conversion has made must still be there, unchanged, when the conversion is over.  The
conversion itself only adds to the heap, so it is up to the codecs. -/

/-- Encoding a custom value only adds to the heap. -/
def Codec.IsAdditive (codec : Codec) : Prop :=
  ∀ (custom : Custom) (g : GuestState), g.Extends (codec.encode custom g).2

theorem GuestState.extends_arrayMarkerTable (g : GuestState) : g.Extends g.arrayMarkerTable.2 := by
  rw [arrayMarkerTable]
  split
  · exact .refl g
  · have hnew := g.extends_newTable { entries := [(.ofString "__shape", .ofString "array")] }
    exact ⟨hnew.size, hnew.tables, hnew.userdata⟩

theorem GuestState.Extends.of_grows {g g' : GuestState} (h : g.Grows g') : g.Extends g' := by
  induction h with
  | refl => exact .refl g
  | tail _ h ih =>
    refine ih.trans ?_
    cases h with
    | newTable t => exact extends_newTable _ t
    | marker => exact extends_arrayMarkerTable _
    | newFunction f => exact extends_newFunction _ f
    | carry v hv => exact extends_newUserdata _ _

namespace Codec

theorem Grows.isAdditive {codec : Codec} (h : codec.Grows) : codec.IsAdditive :=
  fun custom g => .of_grows (h custom g)

theorem isAdditive_pair (tag : String) : (pair tag).IsAdditive := (grows_pair tag).isAdditive

theorem isAdditive_text (tag : String) : (text tag).IsAdditive := (grows_text tag).isAdditive

end Codec

namespace World

/-- All codecs only add to the heap. -/
def IsAdditive (w : World) : Prop := ∀ codec ∈ w.codecs, codec.IsAdditive

/-- Nothing has become of a world but that there is more in the heaps of its states. -/
structure Adds (w w' : World) : Prop where
  codecs : w'.codecs = w.codecs
  size : w'.states.size = w.states.size
  grows : ∀ s, (w.state s).Extends (w'.state s)

/-- What may become of a world in which codecs only add to the heap. -/
def Augments (w w' : World) : Prop := w.IsAdditive → w.Adds w'

variable {w w' w'' : World} {s : Nat} {g : GuestState}

theorem Adds.refl (w : World) : w.Adds w := ⟨rfl, rfl, fun _ => .refl _⟩

theorem Adds.trans (h : w.Adds w') (h' : w'.Adds w'') : w.Adds w'' :=
  ⟨h'.codecs.trans h.codecs, h'.size.trans h.size, fun s => (h.grows s).trans (h'.grows s)⟩

theorem Adds.isAdditive (h : w.Adds w') (hw : w.IsAdditive) : w'.IsAdditive :=
  fun codec hcodec => hw codec (h.codecs ▸ hcodec)

instance : IsPreorder World Augments where
  refl w _ := .refl w
  trans _ _ _ h h' hw := (h hw).trans (h' ((h hw).isAdditive hw))

theorem adds_setState (h : (w.state s).Extends g) : w.Adds (w.setState s g) :=
  ⟨rfl, w.size_setState s g, rel_setState .refl h⟩

/-- **Conversions into a guest only add to its heap**, if the codecs do. -/
theorem takesIn_augments : TakesIn Everywhere Augments where
  grow _ _ _ _ h _ := adds_setState (.of_grows h)
  encode _ _ codec custom _ h hw := adds_setState (hw codec h custom _)

end World

/-! ## Place by place -/

namespace Converter

variable {c : Converter} {s : Nat} {w w' : World} {x y : Value} {k : Custom} {o : GuestObject}

theorem adds_of_fromValueAt (hw : w.IsAdditive) {remaining : Nat}
    {r : Except ConvertError GuestValue}
    (h : (c.fromValueAt s remaining x).on w = (r, w')) : w.Adds w' := by
  have hadds : w.Adds ((c.fromValueAt s remaining x).on w).2 :=
    c.keeps_fromValueAt s World.takesIn_augments trivial remaining x w hw
  rwa [h] at hadds

/-- A value becomes another one in the course of a conversion. -/
def Becomes (c : Converter) (s : Nat) (w w' : World) (x : Value) (r : GuestValue) : Prop :=
  ∃ remaining w₁ w₂, w.Adds w₁ ∧ (c.fromValueAt s remaining x).on w₁ = (.ok r, w₂) ∧ w₂.Adds w'

/-- Elements are converted in their places. -/
theorem itemsFromValue_at {remaining : Nat} (items : List Value) :
    ∀ {w w' : World} {values : List GuestValue}, w.IsAdditive →
      (c.itemsFromValue s remaining items).on w = (.ok values, w') →
      w.Adds w' ∧ values.length = items.length ∧ ∀ (place : Nat) (x : Value),
        items[place]? = some x → ∃ r, values[place]? = some r
          ∧ ∃ w₁ w₂, w.Adds w₁ ∧ (c.fromValueAt s remaining x).on w₁ = (.ok r, w₂)
            ∧ w₂.Adds w' := by
  induction items with
  | nil =>
    intro w w' values hw h
    cases h
    exact ⟨.refl w, rfl, fun place x hx => absurd hx (by simp)⟩
  | cons x rest ih =>
    intro w w' values hw h
    obtain ⟨r, w₁, hfirst, h⟩ := Conversion.exists_of_on_bind h
    obtain ⟨others, w₂, hrest, h⟩ := Conversion.exists_of_on_bind h
    cases h
    have hadds := adds_of_fromValueAt hw hfirst
    obtain ⟨hadds', hlen, hplaces⟩ := ih (hadds.isAdditive hw) hrest
    refine ⟨hadds.trans hadds', congrArg (· + 1) hlen, fun place y hy => ?_⟩
    cases place with
    | zero =>
      obtain rfl : x = y := Option.some.inj hy
      exact ⟨r, rfl, w, w₁, .refl w, hfirst, hadds'⟩
    | succ place =>
      obtain ⟨q, hq, w₃, w₄, hbefore, hconvert, hafter⟩ := hplaces place y hy
      exact ⟨q, hq, w₃, w₄, hadds.trans hbefore, hconvert, hafter⟩

theorem Becomes.mono {w₁ w₂ : World} {r : GuestValue} (h : Becomes c s w₁ w₂ x r) (hw : w.Adds w₁)
    (hw' : w₂.Adds w') : Becomes c s w w' x r := by
  obtain ⟨remaining, w₃, w₄, hbefore, hconvert, hafter⟩ := h
  exact ⟨remaining, w₃, w₄, hw.trans hbefore, hconvert, hafter.trans hw'⟩

/-- A table has been made of some values, and under one of its keys there is one of them. -/
theorem follow?_newTable (hs : s < w.states.size) (t : GuestTable) {key r q : GuestValue}
    {path : List Hop} (ht : t.get key = r) (h : (w.state s).follow? r path = some q) :
    ((w.setState s ((w.state s).newTable t).2).state s).follow?
      (.table ((w.state s).newTable t).1) (.key key :: path) = some q := by
  rw [World.state_setState hs]
  refine Option.bind_eq_some_iff.2 ⟨r, ?_, ((w.state s).extends_newTable t).follow? path h⟩
  rw [GuestState.hop?_key (GuestState.getElem?_newTable _ t), ht]

/-- What becomes of a place in one of some values stands at that place under the key of the value,
in a table that is made of all of them. -/
theorem exists_becomes_newTable {remaining place : Nat} {items : List Value}
    {values : List GuestValue} {path : List Hop} (hw : w.IsAdditive) (hs : s < w.states.size)
    (hitems : (c.itemsFromValue s remaining items).on w = (.ok values, w'))
    (hplace : items[place]? = some x)
    (hx : ∀ {w₁ w₂ : World} {v : GuestValue}, w₁.IsAdditive → s < w₁.states.size →
      (c.fromValueAt s remaining x).on w₁ = (.ok v, w₂) →
        ∃ r, Becomes c s w₁ w₂ y r ∧ (w₂.state s).follow? v path = some r)
    (t : GuestTable) {key : GuestValue} (ht : ∀ r, values[place]? = some r → t.get key = r) :
    ∃ r, Becomes c s w (w'.setState s ((w'.state s).newTable t).2) y r
      ∧ ((w'.setState s ((w'.state s).newTable t).2).state s).follow?
        (.table ((w'.state s).newTable t).1) (.key key :: path) = some r := by
  obtain ⟨hadds, -, hplaces⟩ := itemsFromValue_at items hw hitems
  obtain ⟨v, hget, w₁, w₂, hbefore, hconvert, hafter⟩ := hplaces place x hplace
  obtain ⟨r, hbecomes, hfollow⟩ := hx (hbefore.isAdditive hw) (hbefore.size ▸ hs) hconvert
  have htable := World.adds_setState ((w'.state s).extends_newTable t)
  refine ⟨r, hbecomes.mono hbefore (hafter.trans htable), ?_⟩
  exact follow?_newTable (hadds.size ▸ hs) t (ht v hget) ((hafter.grows s).follow? path hfollow)

/-- **A conversion goes place by place.** -/
theorem fromValueAt_at {path : List Hop} (hy : y.At path x) :
    ∀ {remaining : Nat} {w w' : World} {v : GuestValue}, w.IsAdditive → s < w.states.size →
      (c.fromValueAt s remaining x).on w = (.ok v, w') → ∃ r, Becomes c s w w' y r
        ∧ (w'.state s).follow? v path = some r := by
  induction hy with
  | here =>
    intro remaining w w' v hw hs h
    exact ⟨v, ⟨remaining, w, w', .refl w, h, .refl w'⟩, rfl⟩
  | @item items place x path short hplace _ ih =>
    intro remaining w w' v hw hs h
    have hempty : items.isEmpty = false := by
      cases items with
      | nil => cases hplace
      | cons => rfl
    rw [fromValueAt] at h
    by_cases hr : remaining = 0
    · rw [if_pos hr] at h
      cases h
    · rw [if_neg hr] at h
      obtain ⟨values, w₁, hitems, h⟩ := Conversion.exists_of_on_bind h
      have hlen := (itemsFromValue_at items hw hitems).2.1
      rw [hempty] at h
      cases h
      exact exists_becomes_newTable hw hs hitems hplace ih _ fun r hget =>
        GuestTable.get_ofSequence (hlen ▸ short) hget
  | @field fields name x path sorted hmem _ ih =>
    intro remaining w w' v hw hs h
    rw [fromValueAt] at h
    by_cases hr : remaining = 0
    · rw [if_pos hr] at h
      cases h
    · rw [if_neg hr] at h
      obtain ⟨pairs, w₁, hfields, h⟩ := Conversion.exists_of_on_bind h
      rw [fieldsFromValue_on] at hfields
      rcases hitems : (c.itemsFromValue s (remaining - 1) (fields.map (·.2))).on w
        with ⟨_ | values, w₂⟩
      · rw [hitems] at hfields
        cases hfields
      · rw [hitems] at hfields
        cases hfields
        have hlen := (itemsFromValue_at _ hw hitems).2.1
        have hnames : (((fields.map (·.1)).zip values).map (·.1)).Nodup := by
          rw [List.map_fst_zip (by rw [hlen, List.length_map, List.length_map])]
          exact nodup_names sorted
        obtain ⟨place, hplace⟩ := List.mem_iff_getElem?.1 hmem
        have hvalue : (fields.map (·.2))[place]? = some x := by
          rw [List.getElem?_map, hplace]
          rfl
        cases h
        refine exists_becomes_newTable hw hs hitems hvalue ih _ fun r hget =>
          GuestTable.get_ofFields hnames (List.mem_of_getElem? (i := place) ?_)
        rw [List.getElem?_zip_eq_some, List.getElem?_map, hplace]
        exact ⟨rfl, hget⟩

/-! ## Objects

Two things are put together: an object that is handed back to its own state comes back as it is, and
what stands at a place of a value comes to stand at that place of the table that is made of it. -/

/-- An object goes back to its own state as it is. -/
theorem customFromValue_home (hk : k.payload = .guest s o) (w : World) :
    (c.customFromValue s k).on w = (.ok (.object o), w) := by
  rw [customFromValue, hk]
  dsimp only
  rw [if_pos rfl]
  rfl

/-- Other states carry it, unless there is a codec for it. -/
theorem customFromValue_away {owner : Nat} (hk : k.payload = .guest owner o) (hne : owner ≠ s)
    (hcodec : c.codec? k.tag = none) (w : World) :
    (c.customFromValue s k).on w = (carry s (.custom k)).on w := by
  rw [customFromValue, hk]
  dsimp only
  rw [if_neg hne, encodeCustom, Conversion.on_get_bind, hcodec]
  rfl

end Converter

namespace World

open Converter

/-- The host can only carry the object: it is a coroutine, light userdata, or userdata that carries
nothing for the host and that no codec claims. -/
def OnlyCarries (w : World) (c : Converter) (s : Nat) (o : GuestObject) : Prop :=
  ∀ id, o = .userdata id → (w.state s).carried? o = none
    ∧ (offer s (.object o) c.codecs).on w = (.ok none, w)

variable {u w : World} {c : Converter} {s : Nat} {o : GuestObject}

/-- The host gets a custom value for such an object, under the name of its type. -/
theorem leafToValue_object (h : u.OnlyCarries c s o) : ∃ handle u',
    (c.leafToValue s (.object o)).on u = (.ok (.custom ⟨o.typeName, .guest s o, handle⟩), u') := by
  cases o with
  | thread id => exact ⟨u.handles, _, rfl⟩
  | lightUserdata address => exact ⟨u.handles, _, rfl⟩
  | userdata id =>
    obtain ⟨hcarried, hoffer⟩ := h id rfl
    refine ⟨u.handles, { u with handles := u.handles + 1 }, ?_⟩
    rw [leafToValue, Conversion.on_get_bind, hcarried]
    exact Conversion.on_bind_ok hoffer

theorem toValue_object (h : u.OnlyCarries c s o) : ∃ k u', k.payload = .guest s o
    ∧ (toValue c s (.object o)).run u = (.ok (.custom k), u') := by
  have hleaf : (toValue c s (.object o)).run u = (c.leafToValue s (.object o)).on u :=
    on_toValueAt_leaf fun id h => by cases h
  obtain ⟨handle, u', hread⟩ := leafToValue_object h
  exact ⟨_, u', rfl, hleaf.trans hread⟩

/-- **Objects of the guest outlive their loan.**  Take an object that the host can only carry, and
hand it out.  Then, whatever else becomes of the world and whichever scopes end, that of its own
state included, its state gets the object itself back, from any converter: by itself, and at
whatever place in a value it stands.  Any other state gets something else, which is what the
converter's codec makes of it, or else userdata that carries it. -/
theorem objects_of_becomes (hs : s < u.states.size) (hu : u.IsCareful)
    (ho : u.OnlyCarries c s o) :
    ∃ k u', (toValue c s (.object o)).run u = (.ok (.custom k), u') ∧
    ∀ ended w, u'.Becomes ended w →
      (∀ c', (fromValue c' s (.custom k)).run w = (.ok (.object o), w))
      ∧ (w.IsAdditive → ∀ c' s' x path v w', (Value.custom k).At path x →
        (fromValue c' s' x).run w = (.ok v, w') →
        (s' = s → (w'.state s').follow? v path = some (.object o))
        ∧ (s' ≠ s → s' < w.states.size → c'.codec? k.tag = none →
          ∃ id, (w'.state s').follow? v path = some (.object (.userdata id))
            ∧ (w'.state s').carried? (.userdata id) = some (.custom k))) := by
  obtain ⟨k, u', hk, hread⟩ := toValue_object ho
  refine ⟨k, u', hread, fun ended w hbecomes => ⟨fun c' => customFromValue_home hk w,
    fun hw c' s' x path v w' hx hput => ?_⟩⟩
  have hdone : u.Becomes [] u' := by
    have hstep := Becomes.refl.step (Happens.toValue (w := u) c s (.object o))
    rwa [hread] at hstep
  have hthere : s < w.states.size :=
    Nat.lt_of_lt_of_le hs ((hdone.trans hbecomes).follows hu).states
  refine ⟨fun heq => ?_, fun hne hs' hcodec => ?_⟩
  · obtain rfl := heq
    obtain ⟨r, ⟨left, w₁, w₂, -, hr, -⟩, hfollow⟩ := fromValueAt_at hx hw hthere hput
    have hhome : (c'.fromValueAt s' left (.custom k)).on w₁ = (.ok (.object o), w₁) :=
      customFromValue_home hk w₁
    rw [hhome] at hr
    cases hr
    exact hfollow
  · obtain ⟨r, ⟨left, w₁, w₂, hbefore, hr, hafter⟩, hfollow⟩ := fromValueAt_at hx hw hs' hput
    have haway : (c'.fromValueAt s' left (.custom k)).on w₁ = (carry s' (.custom k)).on w₁ :=
      customFromValue_away hk (Ne.symm hne) hcodec w₁
    rw [haway, carry, Conversion.on_onState] at hr
    cases hr
    refine ⟨_, hfollow, GuestState.carried?_of_getElem? ((hafter.grows s').userdata ?_)⟩
    rw [state_setState (hbefore.size ▸ hs')]
    exact Array.getElem?_push_size

/-- A coroutine is handed out, the scope ends, and the coroutine comes back as the first element of
an array. -/
theorem objects_of_becomes_thread : ∃ k u' v w',
    (toValue {} 0 (.object (.thread 0))).run untouched = (.ok (.custom k), u')
      ∧ u'.Becomes [0] (u'.endScope 0)
      ∧ (fromValue {} 0 (.array [.custom k])).run (u'.endScope 0) = (.ok v, w')
      ∧ (w'.state 0).follow? v [.key (.ofInt 1)] = some (.object (.thread 0)) := by
  have hcareful : untouched.IsCareful :=
    ⟨fun codec h => absurd h (Array.not_mem_empty codec), fun s u hu => by
      cases s <;> exact absurd hu (Array.not_mem_empty u)⟩
  obtain ⟨k, u', hread, hlater⟩ := objects_of_becomes (u := untouched) (c := {}) (s := 0)
    (o := .thread 0) Nat.zero_lt_one hcareful fun id h => by cases h
  have hends : u'.Becomes [0] (u'.endScope 0) := Becomes.refl.ends 0
  obtain ⟨-, hback⟩ := hlater [0] _ hends
  have hplace : (Value.custom k).At [.key (.ofInt 1)] (.array [.custom k]) :=
    .item (by simp) rfl .here
  rcases hput : (fromValue {} 0 (.array [.custom k])).run (u'.endScope 0) with ⟨_ | v, w'⟩
  · cases hread
    cases hput
  · have hadditive : (u'.endScope 0).IsAdditive := by
      cases hread
      exact fun codec h => absurd h (Array.not_mem_empty codec)
    exact ⟨k, u', v, w', hread, hends, hput, (hback hadditive {} 0 _ _ v w' hplace hput).1 rfl⟩

end World
end ScriptPool
