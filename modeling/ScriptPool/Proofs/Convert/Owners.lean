import ScriptPool.Proofs.Interpreter.Objects

/-!
# Who has the say about a custom value

The codec of a tag is consulted after two kinds of payloads have been dealt with: bytes, which
become a string of the guest, and objects of the very state that the value is put into, which are
given back.  So a codec owns the values of its tag whose payload is neither.  Of those it has the
last word: what it makes of one stands in its place, and if it refuses one, the conversion fails
with what it says.

## What is here

* `Converter.codecFor` — the codec that a converter has for a tag.
* `Custom.IsNative` — the payloads that no codec is asked about.
* `fromValueAt_error` — **why a conversion into a guest fails**: the limit, or a codec.
* `owners_of_fromValue` — **what stands in the place of a custom value that has a codec**, at any
  nesting.
-/

set_option autoImplicit false

namespace ScriptPool

/-- The payload has a form in the guest state whatever the tag is: bytes, and objects of the state
itself. -/
def Custom.IsNative (s : Nat) (k : Custom) : Prop :=
  (∃ data, k.payload = .bytes data) ∨ ∃ o, k.payload = .guest s o

/-- A custom value is somewhere in a value. -/
inductive Value.HasCustom (k : Custom) : Value → Prop where
  | here : HasCustom k (.custom k)
  | item {items : List Value} {x : Value} (h : x ∈ items) (hx : HasCustom k x) :
      HasCustom k (.array items)
  | field {fields : Fields} {field : String × Value} (h : field ∈ fields)
      (hx : HasCustom k field.2) : HasCustom k (.object fields)

namespace Converter

/-- The codec that there is for a tag. -/
def codecFor (c : Converter) (codecs : Array Codec) (tag : String) : Option Codec :=
  (c.codec? tag).bind (codecs[·]?)

variable {c : Converter} {s remaining : Nat} {w u : World} {k : Custom} {codec : Codec} {x : Value}
  {v : GuestValue} {e : ConvertError}

/-! ## One custom value -/

theorem on_customFromValue_bytes {data : ByteArray} (hk : k.payload = .bytes data) :
    (c.customFromValue s k).on w = (.ok (.string data), w) := by
  rw [customFromValue, hk]
  rfl

theorem customFromValue_of_not_native (hk : ¬ k.IsNative s) :
    c.customFromValue s k = c.encodeCustom s k := by
  rw [customFromValue]
  split
  · rename_i data hdata
    exact absurd (.inl ⟨data, hdata⟩) hk
  · rename_i owner o hguest
    refine if_neg fun howner => hk (.inr ⟨o, ?_⟩)
    rw [hguest, howner]
  · rfl

/-- What a codec makes of a value, or says against it, is what the conversion gives. -/
theorem on_customFromValue_codec (hk : ¬ k.IsNative s)
    (hcodec : c.codecFor w.codecs k.tag = some codec) :
    (c.customFromValue s k).on w
      = ((codec.encode k (w.state s)).1, w.setState s (codec.encode k (w.state s)).2) := by
  rw [customFromValue_of_not_native hk, encodeCustom, Conversion.on_get_bind,
    show (c.codec? k.tag).bind (w.codecs[·]?) = some codec from hcodec]
  obtain ⟨encode, leadsTo, decode⟩ := codec
  dsimp only
  rcases encode k (w.state s) with ⟨_ | v, g⟩
  · rfl
  · rfl

/-- Without a codec, the value is carried. -/
theorem on_customFromValue_carry (hk : ¬ k.IsNative s) (hcodec : c.codecFor w.codecs k.tag = none) :
    (c.customFromValue s k).on w = (carry s (.custom k)).on w := by
  rw [customFromValue_of_not_native hk, encodeCustom, Conversion.on_get_bind,
    show (c.codec? k.tag).bind (w.codecs[·]?) = none from hcodec]

/-- A function becomes a function of the guest, one that is there or a new one. -/
theorem on_functionFromValue (f : FunctionValue) : ∃ id, (c.functionFromValue s f).on w
      = (.ok (.function id), w)
    ∨ (c.functionFromValue s f).on w = (.ok (.function id),
      w.setState s ((w.state s).newFunction (.trampoline f c)).2) := by
  rw [functionFromValue, Conversion.on_get_bind]
  cases w.guestFunction? f with
  | none => exact ⟨_, .inr rfl⟩
  | some g =>
    dsimp only
    split
    · exact ⟨g.function, .inl rfl⟩
    · exact ⟨_, .inr rfl⟩

/-! ## Why a conversion into a guest fails

Nothing but the limit and codecs can make such a conversion fail, and what a codec has said is
passed on as it is.  The world may have changed by the time a codec is asked, so the refusal is one
in a later world. -/

section Failing

variable {R : World → World → Prop}

/-- The codec of a custom value refuses it, in a world that has come about in the meantime. -/
def Refuses (c : Converter) (s : Nat) (R : World → World → Prop) (w : World) (k : Custom)
    (e : ConvertError) : Prop :=
  ¬ k.IsNative s ∧ ∃ codec w₁ g, R w w₁ ∧ c.codecFor w₁.codecs k.tag = some codec
    ∧ codec.encode k (w₁.state s) = (.error e, g)

theorem customFromValue_error [IsPreorder World R]
    (h : (c.customFromValue s k).on w = (.error e, u)) : Refuses c s R w k e := by
  have hk : ¬ k.IsNative s := by
    rintro (⟨data, hdata⟩ | ⟨o, ho⟩)
    · rw [on_customFromValue_bytes hdata] at h
      cases h
    · rw [customFromValue_home ho] at h
      cases h
  cases hcodec : c.codecFor w.codecs k.tag with
  | none =>
    rw [on_customFromValue_carry hk hcodec] at h
    cases h
  | some codec =>
    rw [on_customFromValue_codec hk hcodec] at h
    exact ⟨hk, codec, w, _, refl_of R w, hcodec, Prod.ext (Prod.mk.inj h).1 rfl⟩

theorem Refuses.of_rel [IsPreorder World R] {w₁ : World} (hw : R w w₁) (h : Refuses c s R w₁ k e) :
    Refuses c s R w k e := by
  obtain ⟨hk, codec, w₂, g, hbefore, hcodec, hrun⟩ := h
  exact ⟨hk, codec, w₂, g, trans_of R hw hbefore, hcodec, hrun⟩

variable [IsPreorder World R]

theorem rel_of_fromValueAt (hR : TakesIn Everywhere R) {r : Except ConvertError GuestValue}
    (h : (c.fromValueAt s remaining x).on w = (r, u)) : R w u := by
  have hrel : R w ((c.fromValueAt s remaining x).on w).2 :=
    c.keeps_fromValueAt s hR trivial remaining x w
  rwa [h] at hrel

mutual

/-- **A conversion into a guest fails because of the limit or because of a codec.** -/
theorem fromValueAt_error (hR : TakesIn Everywhere R) (remaining : Nat) :
    ∀ (x : Value) {w u : World},
    (c.fromValueAt s remaining x).on w = (.error e, u) →
      (e = .tooDeep c.maxDepth ∧ remaining < x.depth)
        ∨ ∃ k, x.HasCustom k ∧ Refuses c s R w k e
  | .nil, _, _, h => nomatch h
  | .bool _, _, _, h => nomatch h
  | .number _, _, _, h => nomatch h
  | .string _, _, _, h => nomatch h
  | .array items, w, u, h => by
      rw [fromValueAt] at h
      rw [Value.depth]
      by_cases hr : remaining = 0
      · rw [if_pos hr] at h
        cases h
        exact .inl ⟨rfl, by omega⟩
      · rw [if_neg hr] at h
        change ((c.itemsFromValue s (remaining - 1) items) >>= _).on w = _ at h
        rcases hitems : (c.itemsFromValue s (remaining - 1) items).on w with ⟨f | values, w₁⟩
        · rw [Conversion.on_bind_error hitems] at h
          cases h
          refine (itemsFromValue_error hR (remaining - 1) items hitems).imp (fun hdeep => ?_)
            fun ⟨x, hx, k, hk, hrefuses⟩ => ⟨k, .item hx hk, hrefuses⟩
          exact ⟨hdeep.1, by omega⟩
        · rw [Conversion.on_bind_ok hitems] at h
          cases h
  | .object fields, w, u, h => by
      rw [fromValueAt] at h
      rw [Value.depth]
      by_cases hr : remaining = 0
      · rw [if_pos hr] at h
        cases h
        exact .inl ⟨rfl, by omega⟩
      · rw [if_neg hr] at h
        change ((c.fieldsFromValue s (remaining - 1) fields) >>= _).on w = _ at h
        rcases hfields : (c.fieldsFromValue s (remaining - 1) fields).on w with ⟨f | values, w₁⟩
        · rw [Conversion.on_bind_error hfields] at h
          cases h
          refine (fieldsFromValue_error hR (remaining - 1) fields hfields).imp (fun hdeep => ?_)
            fun ⟨field, hfield, k, hk, hrefuses⟩ => ⟨k, .field hfield hk, hrefuses⟩
          exact ⟨hdeep.1, by omega⟩
        · rw [Conversion.on_bind_ok hfields] at h
          cases h
  | .function f, w, u, h => by
      rw [fromValueAt] at h
      obtain ⟨id, hok | hok⟩ := on_functionFromValue (c := c) (s := s) (w := w) f
      · rw [hok] at h
        cases h
      · rw [hok] at h
        cases h
  | .error _, _, _, h => nomatch h
  | .channel _, _, _, h => nomatch h
  | .custom k, _, _, h => .inr ⟨k, .here, customFromValue_error h⟩

/-- Elements fail to convert because one of them does. -/
theorem itemsFromValue_error (hR : TakesIn Everywhere R) (remaining : Nat) :
    ∀ (items : List Value) {w u : World},
    (c.itemsFromValue s remaining items).on w = (.error e, u) →
      (e = .tooDeep c.maxDepth ∧ remaining < Value.depthItems items)
        ∨ ∃ x ∈ items, ∃ k, x.HasCustom k ∧ Refuses c s R w k e
  | [], _, _, h => nomatch h
  | x :: rest, w, u, h => by
      rw [itemsFromValue] at h
      rw [Value.depthItems]
      rcases hx : (c.fromValueAt s remaining x).on w with ⟨f | v, w₁⟩
      · rw [Conversion.on_bind_error hx] at h
        cases h
        refine (fromValueAt_error hR remaining x hx).imp (fun hdeep => ?_)
          fun ⟨k, hk, hrefuses⟩ => ⟨x, List.mem_cons_self, k, hk, hrefuses⟩
        exact ⟨hdeep.1, by omega⟩
      · rw [Conversion.on_bind_ok hx] at h
        rcases hrest : (c.itemsFromValue s remaining rest).on w₁ with ⟨f | values, w₂⟩
        · rw [Conversion.on_bind_error hrest] at h
          cases h
          refine (itemsFromValue_error hR remaining rest hrest).imp (fun hdeep => ?_)
            fun ⟨y, hy, k, hk, hrefuses⟩ => ⟨y, List.mem_cons_of_mem x hy, k, hk,
              hrefuses.of_rel (rel_of_fromValueAt hR hx)⟩
          exact ⟨hdeep.1, by omega⟩
        · rw [Conversion.on_bind_ok hrest] at h
          cases h

/-- Fields fail to convert because the value of one of them does. -/
theorem fieldsFromValue_error (hR : TakesIn Everywhere R) (remaining : Nat) :
    ∀ (fields : Fields) {w u : World},
    (c.fieldsFromValue s remaining fields).on w = (.error e, u) →
      (e = .tooDeep c.maxDepth ∧ remaining < Value.depthFields fields)
        ∨ ∃ field ∈ fields, ∃ k, field.2.HasCustom k ∧ Refuses c s R w k e
  | [], _, _, h => nomatch h
  | (name, x) :: rest, w, u, h => by
      rw [fieldsFromValue] at h
      rw [Value.depthFields]
      rcases hx : (c.fromValueAt s remaining x).on w with ⟨f | v, w₁⟩
      · rw [Conversion.on_bind_error hx] at h
        cases h
        refine (fromValueAt_error hR remaining x hx).imp (fun hdeep => ?_)
          fun ⟨k, hk, hrefuses⟩ => ⟨(name, x), List.mem_cons_self, k, hk, hrefuses⟩
        exact ⟨hdeep.1, by omega⟩
      · rw [Conversion.on_bind_ok hx] at h
        rcases hrest : (c.fieldsFromValue s remaining rest).on w₁ with ⟨f | values, w₂⟩
        · rw [Conversion.on_bind_error hrest] at h
          cases h
          refine (fieldsFromValue_error hR remaining rest hrest).imp (fun hdeep => ?_)
            fun ⟨field, hfield, k, hk, hrefuses⟩ => ⟨field, List.mem_cons_of_mem _ hfield, k, hk,
              hrefuses.of_rel (rel_of_fromValueAt hR hx)⟩
          exact ⟨hdeep.1, by omega⟩
        · rw [Conversion.on_bind_ok hrest] at h
          cases h

end

end Failing

/-! ## What stands in the place of a custom value -/

/-- What a custom value that has a codec becomes in the course of a conversion. -/
inductive BecomesOwned (c : Converter) (s : Nat) (w u : World) (k : Custom) (codec : Codec) :
    GuestValue → Prop where
  | bytes {data : ByteArray} (h : k.payload = .bytes data) :
      BecomesOwned c s w u k codec (.string data)
  | home {o : GuestObject} (h : k.payload = .guest s o) : BecomesOwned c s w u k codec (.object o)
  /-- The codec makes something of it, and that is not touched any more. -/
  | encoded {w₁ : World} {r : GuestValue} {g : GuestState} (native : ¬ k.IsNative s)
      (before : w.Adds w₁) (run : codec.encode k (w₁.state s) = (.ok r, g))
      (after : g.Extends (u.state s)) : BecomesOwned c s w u k codec r

theorem becomesOwned (hs : s < w.states.size) (hcodec : c.codecFor w.codecs k.tag = some codec)
    (h : Becomes c s w u (.custom k) v) : BecomesOwned c s w u k codec v := by
  obtain ⟨left, w₁, w₂, hbefore, hrun, hafter⟩ := h
  have hrun : (c.customFromValue s k).on w₁ = (.ok v, w₂) := hrun
  by_cases hk : k.IsNative s
  · rcases hk with ⟨data, hdata⟩ | ⟨o, ho⟩
    · rw [on_customFromValue_bytes hdata] at hrun
      cases hrun
      exact .bytes hdata
    · rw [customFromValue_home ho] at hrun
      cases hrun
      exact .home ho
  · rw [on_customFromValue_codec hk (hbefore.codecs ▸ hcodec)] at hrun
    obtain ⟨hv, rfl⟩ := Prod.mk.inj hrun
    refine .encoded hk hbefore (Prod.ext hv rfl) ?_
    have hgrows := hafter.grows s
    rwa [World.state_setState (hbefore.size ▸ hs)] at hgrows

/-- **What stands in the place of a custom value that has a codec.**  When a value converts, there
is a string in the place of bytes, the object in the place of an object of the state, and in the
place of any other custom value what its codec has made of it.  When it does not convert, it is too
deep, or the codec of one of the custom values in it has said why.  In particular it does not
convert if the codec of one of them refuses it in every heap. -/
theorem owners_of_fromValue (hw : w.IsAdditive) (hs : s < w.states.size) {path : List Hop}
    (hk : (Value.custom k).At path x) (hcodec : c.codecFor w.codecs k.tag = some codec) :
    (∀ v u, (c.fromValue s x).on w = (.ok v, u) →
      ∃ r, (u.state s).follow? v path = some r ∧ BecomesOwned c s w u k codec r)
    ∧ (∀ e u, (c.fromValue s x).on w = (.error e, u) →
      (e = .tooDeep c.maxDepth ∧ c.maxDepth < x.depth)
        ∨ ∃ k', x.HasCustom k' ∧ Refuses c s World.Adds w k' e)
    ∧ (¬ k.IsNative s → (∀ g, ∃ e g', codec.encode k g = (.error e, g')) →
      ∃ e u, (c.fromValue s x).on w = (.error e, u)) := by
  have hplace : ∀ v u, (c.fromValue s x).on w = (.ok v, u) →
      ∃ r, (u.state s).follow? v path = some r ∧ BecomesOwned c s w u k codec r := by
    intro v u hrun
    obtain ⟨r, hbecomes, hfollow⟩ := fromValueAt_at hk hw hs hrun
    exact ⟨r, hfollow, becomesOwned hs hcodec hbecomes⟩
  refine ⟨hplace, fun e u hrun => ?_, fun hnative hrefuses => ?_⟩
  · refine (fromValueAt_error World.takesIn_augments c.maxDepth x hrun).imp_right ?_
    rintro ⟨k', hk', hnative, codec', w₁, g, hbefore, hcodec', hencode⟩
    exact ⟨k', hk', hnative, codec', w₁, g, hbefore hw, hcodec', hencode⟩
  · rcases hrun : (c.fromValue s x).on w with ⟨e | v, u⟩
    · exact ⟨e, u, rfl⟩
    · obtain ⟨r, -, hr⟩ := hplace v u hrun
      cases hr with
      | bytes h => exact absurd (.inl ⟨_, h⟩) hnative
      | home h => exact absurd (.inr ⟨_, h⟩) hnative
      | @encoded w₁ _ _ _ _ run =>
        obtain ⟨e, g', he⟩ := hrefuses (w₁.state s)
        rw [run] at he
        cases he

/-- A world with one guest state, in which there is a codec that turns everything into a text. -/
def withText : World where
  states := #[{}]
  codecs := #[Codec.text "t"]

/-- Bytes with the tag of the codec become a string of these bytes, which is not what the codec
makes of them. -/
theorem owners_of_fromValue_bytes : ∃ v u,
    (({ codecs := [("t", 0)] } : Converter).fromValue 0
      (.custom ⟨"t", .bytes "hi".toUTF8, 0⟩)).on withText = (.ok v, u)
      ∧ BecomesOwned { codecs := [("t", 0)] } 0 withText u ⟨"t", .bytes "hi".toUTF8, 0⟩
        (Codec.text "t") v
      ∧ v = .string "hi".toUTF8 ∧ v ≠ .ofString "t" := by
  have hadditive : withText.IsAdditive := by
    intro codec hcodec
    obtain rfl : codec = Codec.text "t" := Array.mem_singleton.1 hcodec
    exact Codec.isAdditive_text "t"
  obtain ⟨hplace, -⟩ := owners_of_fromValue (c := { codecs := [("t", 0)] }) (w := withText)
    (x := .custom ⟨"t", .bytes "hi".toUTF8, 0⟩) hadditive Nat.zero_lt_one .here rfl
  obtain ⟨r, hfollow, hr⟩ := hplace _ withText rfl
  obtain rfl := Option.some.inj hfollow
  exact ⟨_, withText, rfl, hr, rfl, fun heq =>
    absurd (GuestValue.string.inj heq) (by decide)⟩

end Converter
end ScriptPool
