import ScriptPool.Proofs.Convert.Names
import ScriptPool.Proofs.Convert.TreeTrip

/-!
# Leaves there and back

What becomes of the leaves of a tree that is put into a guest state and read back, by a converter
with codecs that keep the laws.  Plain data comes back as it is, except that a number may have been
an integer of the guest on the way.  A function comes back under a handle of its own.  A custom
value comes back in one of four ways, and which of them it is depends on its payload first and on
its tag only then:

* bytes become a string of the guest, and what comes back is text, or bytes under the tag `bytes`;
* an object of the state itself becomes that object, and comes back under the name of its type;
* what has a codec comes back by way of the codec, with its tag and its payload;
* everything else is carried, and comes back as it was.

## What is here

* `Crossed` — what a leaf comes back as.
* `goesThrough_leaf` — every leaf comes back so.
* `crosses_leafwise` — **a tree comes back leaf by leaf**, unless a codec refuses one of the custom
  values in it.
* `foreign_of_crosses` — **what becomes of custom values without a codec**: they keep tag and
  payload when they are carried, and otherwise only by chance.
-/

set_option autoImplicit false

namespace ScriptPool
namespace Converter

/-- What a leaf comes back as. -/
inductive Crossed (c : Converter) (codecs : Array Codec) (s : Nat) : Value → Value → Prop where
  | nil : Crossed c codecs s .nil .nil
  | bool (b : Bool) : Crossed c codecs s (.bool b) (.bool b)
  | number (y : Float) : Crossed c codecs s (.number y) (.number (settled y))
  | string (text : String) : Crossed c codecs s (.string text) (.string text)
  | function (f : FunctionValue) (handle : Handle) :
      Crossed c codecs s (.function f) (.function ⟨"anonymous", handle⟩)
  | error (e : ErrorValue) : Crossed c codecs s (.error e) (.error e)
  | channel (ch : Channel) : Crossed c codecs s (.channel ch) (.channel ch)
  | text {k : Custom} {data : ByteArray} {text : String} (hk : k.payload = .bytes data)
      (htext : String.fromUTF8? data = some text) : Crossed c codecs s (.custom k) (.string text)
  | bytes {k : Custom} {data : ByteArray} (handle : Handle) (hk : k.payload = .bytes data)
      (htext : String.fromUTF8? data = none) :
      Crossed c codecs s (.custom k) (.custom ⟨"bytes", .bytes data, handle⟩)
  | home {k : Custom} {o : GuestObject} (handle : Handle) (hk : k.payload = .guest s o) :
      Crossed c codecs s (.custom k) (.custom ⟨o.typeName, .guest s o, handle⟩)
  | carried {k : Custom} (native : ¬ k.IsNative s) (hcodec : c.codecFor codecs k.tag = none) :
      Crossed c codecs s (.custom k) (.custom k)
  | claimed {k : Custom} {codec : Codec} (handle : Handle) (native : ¬ k.IsNative s)
      (hcodec : c.codecFor codecs k.tag = some codec) :
      Crossed c codecs s (.custom k) (.custom ⟨k.tag, k.payload, handle⟩)

/-- In every course, the host can only carry the object: if it is userdata, it carries nothing
itself, and no codec claims it. -/
def Unclaimed (c : Converter) (codecs : Array Codec) (g : GuestState) (o : GuestObject) : Prop :=
  ∀ id, o = .userdata id → ∀ p, c.Possible codecs g p →
    p.heap.carried? o = none ∧ c.DeclinedBut codecs none p.heap (.object o)

/-- A leaf that is an object of the state is one that no codec claims. -/
def Fitting (c : Converter) (codecs : Array Codec) (g : GuestState) (s : Nat) (x : Value) : Prop :=
  ∀ k o, x = .custom k → k.payload = .guest s o → c.Unclaimed codecs g o

variable {c : Converter} {codecs : Array Codec} {s : Nat} {g₀ : GuestState} {w u : World}
  {p q : Course} {v : GuestValue} {x y z : Value} {k : Custom} {R : Value → Value → Prop}

theorem Crossed.isNil (h : Crossed c codecs s x z) : z.isNil = x.isNil := by
  cases h <;> rfl

/-- Foreign userdata that a codec claims is read as what the codec gives for it. -/
theorem on_leafToValue_claimed {id : Nat} {tag : String} {payload : Payload}
    (hforeign : (w.state s).carried? (.userdata id) = none)
    (hoffer : (offer s (.object (.userdata id)) c.codecs).on w = (.ok (some (tag, payload)), w)) :
    (c.leafToValue s (.object (.userdata id))).on w = (newCustom tag payload).on w := by
  rw [leafToValue, Conversion.on_get_bind, hforeign]
  exact Conversion.on_bind_ok hoffer

/-! ## One leaf

Each kind of leaf goes its own way into the guest and out again.  Where it becomes something of the
heap, what is shown holds of all courses that go on from there. -/

/-- A leaf that goes in without a trace comes back if it is read back in every course. -/
theorem goesThrough_plain (hx : x.IsLeaf) (hv : ∀ id, v ≠ .table id) (hnil : v.isNil = x.isNil)
    (hfrom : ∀ n w, (c.fromValueAt s n x).on w = (.ok v, w))
    (hread : ∀ w q, c.Possible codecs g₀ q → Hosts codecs s w q →
      ∃ z u, (c.leafToValue s v).on w = (.ok z, u) ∧ z.IsLeaf ∧ R x z) :
    GoesThrough c codecs g₀ s R x := by
  intro n w p v' w' hp hw hrun
  rw [hfrom] at hrun
  cases hrun
  rw [Value.depth_of_isLeaf hx]
  exact ⟨Nat.zero_le n, p, .refl, hw,
    readsBack_leaf hv hx hnil fun w q hq hw => hread w q (hp.trans hq) hw⟩

theorem goesThrough_number (y : Float) :
    GoesThrough c codecs g₀ s (Crossed c codecs s) (.number y) := by
  obtain ⟨n, hrange, hv, hy⟩ | ⟨hv, hy⟩ := ofNumber_cases y
  · refine goesThrough_plain (v := .ofInt n) trivial (fun _ h => by cases h) rfl
      (fun _ _ => by rw [fromValueAt, hv]; rfl) fun w q _ _ => ?_
    have hread : (c.leafToValue s (.ofInt n)).on w = (.ok (.number (settled y)), w) := by
      rw [GuestValue.ofInt, leafToValue, Int64.toInt_ofInt_of_le hrange.1 hrange.2, hy,
        Conversion.on_pure]
    exact ⟨_, w, hread, trivial, .number y⟩
  · refine goesThrough_plain (v := .float y) trivial (fun _ h => by cases h) rfl
      (fun _ _ => by rw [fromValueAt, hv]; rfl) fun w q _ _ => ?_
    have hread : (c.leafToValue s (.float y)).on w = (.ok (.number (settled y)), w) := by
      rw [leafToValue, hy, Conversion.on_pure]
    exact ⟨_, w, hread, trivial, .number y⟩

theorem goesThrough_string (text : String) :
    GoesThrough c codecs g₀ s (Crossed c codecs s) (.string text) := by
  refine goesThrough_plain (v := .ofString text) trivial (fun _ h => by cases h) rfl
    (fun _ _ => rfl) fun w q _ _ => ⟨.string text, w, ?_, trivial, .string text⟩
  rw [GuestValue.ofString, leafToValue, GuestValue.fromUTF8?_toUTF8]
  rfl

/-- A function of the guest comes back as that, and any other as the trampoline for it. -/
theorem goesThrough_function (f : FunctionValue) :
    GoesThrough c codecs g₀ s (Crossed c codecs s) (.function f) := by
  intro n w p v w' hp hw hrun
  rw [fromValueAt] at hrun
  have hback : ∀ (q : Course) (id : Nat),
      ReadsBack c codecs s (Crossed c codecs s) q 0 (.function id) (.function f) := fun q id =>
    readsBack_leaf (fun _ h => by cases h) trivial rfl fun _ _ _ _ =>
      ⟨_, _, rfl, trivial, .function f _⟩
  obtain ⟨id, hthere | hnew⟩ := on_functionFromValue (c := c) (s := s) (w := w) f
  · rw [hthere] at hrun
    cases hrun
    exact ⟨Nat.zero_le n, p, .refl, hw, hback p id⟩
  · rw [hnew] at hrun
    cases hrun
    refine ⟨Nat.zero_le n, ⟨(p.heap.newFunction (.trampoline f c)).2, p.made⟩,
      .single (.function _), hw.setState (by rw [hw.heap]), hback _ id⟩

theorem goesThrough_bytes {data : ByteArray} (hk : k.payload = .bytes data) :
    GoesThrough c codecs g₀ s (Crossed c codecs s) (.custom k) := by
  refine goesThrough_plain (v := .string data) trivial (fun _ h => by cases h) rfl
    (fun _ _ => on_customFromValue_bytes hk) fun w q _ _ => ?_
  cases htext : String.fromUTF8? data with
  | some text =>
    refine ⟨.string text, w, ?_, trivial, .text hk htext⟩
    rw [leafToValue, htext]
    rfl
  | none =>
    refine ⟨.custom ⟨"bytes", .bytes data, w.handles⟩, { w with handles := w.handles + 1 }, ?_,
      trivial, .bytes _ hk htext⟩
    rw [leafToValue, htext]
    rfl

theorem goesThrough_home {o : GuestObject} (hk : k.payload = .guest s o)
    (ho : c.Unclaimed codecs g₀ o) :
    GoesThrough c codecs g₀ s (Crossed c codecs s) (.custom k) := by
  refine goesThrough_plain (v := .object o) trivial (fun _ h => by cases h) rfl
    (fun _ w => customFromValue_home hk w) fun w q hq hw => ?_
  have hcarries : w.OnlyCarries c s o := by
    intro id hid
    obtain ⟨hforeign, hdeclined⟩ := ho id hid q hq
    rw [hw.heap]
    refine ⟨hforeign, on_offer_declined fun entry hentry codec hcodec => ?_⟩
    rw [hw.heap]
    exact hdeclined entry hentry (fun h => nomatch h) codec (hw.codecs ▸ hcodec)
  obtain ⟨handle, u, hread⟩ := World.leafToValue_object hcarries
  exact ⟨_, u, hread, trivial, .home handle hk⟩

/-- What is carried comes back as it was. -/
theorem goesThrough_carried (hkept : c.Undisturbed codecs g₀) (hx : x.IsLeaf)
    (hnil : x.isNil = false)
    (hfrom : ∀ n w, w.codecs = codecs → (c.fromValueAt s n x).on w = (carry s x).on w)
    (hR : R x x) : GoesThrough c codecs g₀ s R x := by
  intro n w p v w' hp hw hrun
  rw [hfrom n w hw.codecs] at hrun
  cases hrun
  have hstep : p.Leads (c.codecFor codecs) ⟨(p.heap.newUserdata (.carrier x)).2,
      ((p.heap.newUserdata (.carrier x)).1, .carrier x) :: p.made⟩ := .single (.carry x)
  rw [Value.depth_of_isLeaf hx]
  refine ⟨Nat.zero_le n, _, hstep, hw.setState (by rw [hw.heap]; rfl), ?_⟩
  refine readsBack_leaf (fun _ h => by cases h) hx hnil.symm fun w₁ q hq hw₁ =>
    ⟨x, w₁, leafToValue_carried (GuestState.carried?_of_getElem? ?_), hx, hR⟩
  rw [hw.heap, hw₁.heap]
  exact (hkept q ((hp.trans hstep).trans hq)).carriers _ x (hq.made _ List.mem_cons_self)

/-- What a codec has made is read back by that codec. -/
theorem goesThrough_claimed (hlawful : c.Lawful codecs g₀) (hdisjoint : c.Disjoint codecs g₀)
    (hk : ¬ k.IsNative s) {codec : Codec} (hcodec : c.codecFor codecs k.tag = some codec) :
    GoesThrough c codecs g₀ s (Crossed c codecs s) (.custom k) := by
  intro n w p v w' hp hw hrun
  rw [fromValueAt, on_customFromValue_codec hk (hw.codecs ▸ hcodec)] at hrun
  obtain ⟨hv, rfl⟩ := Prod.mk.inj hrun
  have hencode : codec.encode k p.heap = (.ok v, (codec.encode k p.heap).2) :=
    Prod.ext (hw.heap ▸ hv) rfl
  have hstep : p.Leads (c.codecFor codecs)
      ⟨(codec.encode k p.heap).2, (v, .codec k.tag k.payload) :: p.made⟩ :=
    .single (.encode hcodec hencode)
  have hclaims : ∀ q, Course.Leads (c.codecFor codecs)
      ⟨(codec.encode k p.heap).2, (v, .codec k.tag k.payload) :: p.made⟩ q →
      codec.Claims q.heap v k.payload := fun q hq =>
    hlawful q ((hp.trans hstep).trans hq) v k.tag k.payload codec
      (hq.made _ List.mem_cons_self) hcodec
  refine ⟨Nat.zero_le n, _, hstep, hw.setState (by rw [hw.heap]), ?_, ?_⟩
  · obtain ⟨-, ⟨id, rfl⟩ | ⟨id, rfl, -⟩⟩ := hclaims _ .refl
    · rfl
    · rfl
  · intro w₁ q left path hq hw₁ _ _
    obtain ⟨hdecode, hform⟩ := hclaims q hq
    have hoffer : (offer s v c.codecs).on w₁ = (.ok (some (k.tag, k.payload)), w₁) := by
      refine on_offer_claimed (hw₁.codecs ▸ hcodec) (hw₁.heap ▸ hdecode) ?_
      rw [hw₁.heap, hw₁.codecs]
      exact hdisjoint.encoded q ((hp.trans hstep).trans hq) v k.tag k.payload
        (hq.made _ List.mem_cons_self)
    have hread : (c.toValueAt s left path v).on w₁ = (newCustom k.tag k.payload).on w₁ := by
      rcases hform with ⟨id, rfl⟩ | ⟨id, rfl, hforeign⟩
      · exact on_toValueAt_claimed hoffer
      · rw [on_toValueAt_leaf fun _ h => by cases h]
        exact on_leafToValue_claimed (hw₁.heap ▸ hforeign) hoffer
    exact ⟨.custom ⟨k.tag, k.payload, w₁.handles⟩, _, hread, .leaf trivial trivial
      (.claimed _ hk hcodec)⟩

/-- **Every leaf comes back.** -/
theorem goesThrough_leaf (hlawful : c.Lawful codecs g₀) (hdisjoint : c.Disjoint codecs g₀)
    (hkept : c.Undisturbed codecs g₀) (hx : x.IsLeaf) (hfits : c.Fitting codecs g₀ s x) :
    GoesThrough c codecs g₀ s (Crossed c codecs s) x := by
  cases x with
  | nil =>
    exact goesThrough_plain trivial (fun _ h => by cases h) rfl (fun _ _ => rfl) fun w _ _ _ =>
      ⟨.nil, w, rfl, trivial, .nil⟩
  | bool b =>
    exact goesThrough_plain trivial (fun _ h => by cases h) rfl (fun _ _ => rfl) fun w _ _ _ =>
      ⟨.bool b, w, rfl, trivial, .bool b⟩
  | number y => exact goesThrough_number y
  | string text => exact goesThrough_string text
  | array items => exact hx.elim
  | object fields => exact hx.elim
  | function f => exact goesThrough_function f
  | error e => exact goesThrough_carried hkept trivial rfl (fun _ _ _ => rfl) (.error e)
  | channel ch => exact goesThrough_carried hkept trivial rfl (fun _ _ _ => rfl) (.channel ch)
  | custom k =>
    by_cases hk : k.IsNative s
    · rcases hk with ⟨data, hdata⟩ | ⟨o, ho⟩
      · exact goesThrough_bytes hdata
      · exact goesThrough_home ho (hfits k o rfl ho)
    · cases hcodec : c.codecFor codecs k.tag with
      | some codec => exact goesThrough_claimed hlawful hdisjoint hk hcodec
      | none =>
        exact goesThrough_carried hkept trivial rfl
          (fun _ _ hw => on_customFromValue_carry hk (hw ▸ hcodec)) (.carried hk hcodec)

/-! ## Trees -/

/-- A value is put into a guest state, and read back as another one. -/
def Returns (c : Converter) (s : Nat) (w : World) (x y : Value) : Prop :=
  ∃ v w₁ w₂, (c.fromValue s x).on w = (.ok v, w₁) ∧ (c.toValue s v).on w₁ = (.ok y, w₂)

/-- A value is not put in, since the codec of a custom value in it has something against that. -/
def IsRefused (c : Converter) (s : Nat) (w : World) (x : Value) : Prop :=
  ∃ k codec g g' e u, x.HasCustom k ∧ ¬ k.IsNative s ∧ c.codecFor w.codecs k.tag = some codec
    ∧ codec.encode k g = (.error e, g') ∧ (c.fromValue s x).on w = (.error e, u)

/-- Nothing has become of the codecs. -/
def SameCodecs (w w' : World) : Prop := w'.codecs = w.codecs

instance : IsPreorder World SameCodecs where
  refl _ := rfl
  trans _ _ _ h h' := h'.trans h

theorem takesIn_sameCodecs : TakesIn Everywhere SameCodecs :=
  ⟨fun _ _ _ _ _ => rfl, fun _ _ _ _ _ _ => rfl⟩

/-- What is not too deep is put in, or refused by a codec. -/
theorem isRefused_of_error {e : ConvertError} (hdepth : x.depth ≤ c.maxDepth)
    (h : (c.fromValue s x).on w = (.error e, u)) : c.IsRefused s w x := by
  rcases fromValueAt_error takesIn_sameCodecs c.maxDepth x h with
    ⟨-, hdeep⟩ | ⟨k, hk, hnative, codec, w₁, g, hsame, hcodec, hencode⟩
  · exact absurd hdepth (Nat.not_le.2 hdeep)
  · exact ⟨k, codec, _, g, e, u, hk, hnative, hsame ▸ hcodec, hencode, h⟩

section Laws

variable (hs : s < w.states.size) (hlawful : c.Lawful w.codecs (w.state s))
  (hdisjoint : c.Disjoint w.codecs (w.state s)) (hkept : c.Undisturbed w.codecs (w.state s))
  (hdepth : x.depth ≤ c.maxDepth)

include hs hlawful hdisjoint hkept hdepth

/-- **A tree comes back leaf by leaf**, unless a codec refuses one of the custom values in it. -/
theorem crosses_leafwise (hx : x.Leaves (c.Fitting w.codecs (w.state s) s)) :
    (∃ z, c.Returns s w x z.norm ∧ x.Leafwise (Crossed c w.codecs s) z) ∨ c.IsRefused s w x := by
  rcases hrun : (c.fromValue s x).on w with ⟨e | v, w₁⟩
  · exact .inr (isRefused_of_error hdepth hrun)
  · have hgoes : GoesThrough c w.codecs (w.state s) s (Crossed c w.codecs s) x :=
      goesThrough hdisjoint hkept (fun _ _ h => h.isNil) .nil
        (hx.mono fun y hy hfits => goesThrough_leaf hlawful hdisjoint hkept hy hfits)
    obtain ⟨-, q, -, hw₁, hback⟩ :=
      hgoes c.maxDepth w ⟨w.state s, []⟩ v w₁ .refl ⟨rfl, hs, rfl⟩ hrun
    obtain ⟨z, w₂, hread, hleafwise⟩ := hback.reads w₁ q c.maxDepth [] .refl hw₁ hdepth
      fun _ h => absurd h List.not_mem_nil
    exact .inl ⟨z, ⟨v, w₁, w₂, hrun, hread⟩, hleafwise⟩

end Laws

/-! ## Custom values without a codec

There is a second reading of the same result: a registry that knows nothing of a tag has to leave
alone what has it.  It does so for what is carried, and only by chance for bytes. -/

/-- The custom value comes back under its tag: it is carried, or its tag happens to be the one that
is given to what it becomes. -/
inductive KeepsTag (s : Nat) (k : Custom) : Prop where
  | carried (native : ¬ k.IsNative s)
  | bytes {data : ByteArray} (hk : k.payload = .bytes data)
      (htext : String.fromUTF8? data = none) (htag : k.tag = "bytes")
  | home {o : GuestObject} (hk : k.payload = .guest s o) (htag : k.tag = o.typeName)

/-- What a custom value without a codec comes back as: with its tag and its payload, or without, and
as the value itself if it was carried. -/
structure ReturnsForeign (s : Nat) (k : Custom) (z : Value) : Prop where
  keeps : (∃ handle, z = .custom ⟨k.tag, k.payload, handle⟩) ↔ KeepsTag s k
  carried : ¬ k.IsNative s → z = .custom k

theorem Crossed.returnsForeign (h : Crossed c codecs s (.custom k) z)
    (hcodec : c.codecFor codecs k.tag = none) : ReturnsForeign s k z := by
  cases h with
  | @text _ data text hk htext =>
    refine ⟨⟨fun ⟨_, heq⟩ => (nomatch heq), fun hkeeps => ?_⟩, fun hnative =>
      absurd (.inl ⟨data, hk⟩) hnative⟩
    cases hkeeps with
    | carried native => exact absurd (.inl ⟨data, hk⟩) native
    | bytes hk' htext' =>
      obtain rfl := Payload.bytes.inj (hk.symm.trans hk')
      rw [htext] at htext'
      cases htext'
    | home hk' => cases hk.symm.trans hk'
  | @bytes _ data handle hk htext =>
    refine ⟨⟨fun ⟨_, heq⟩ => ?_, fun hkeeps => ?_⟩, fun hnative =>
      absurd (.inl ⟨data, hk⟩) hnative⟩
    · exact .bytes hk htext (congrArg Custom.tag (Value.custom.inj heq)).symm
    · cases hkeeps with
      | carried native => exact absurd (.inl ⟨data, hk⟩) native
      | bytes _ _ htag => exact ⟨handle, by rw [htag, hk]⟩
      | home hk' => cases hk.symm.trans hk'
  | @home _ o handle hk =>
    refine ⟨⟨fun ⟨_, heq⟩ => ?_, fun hkeeps => ?_⟩, fun hnative =>
      absurd (.inr ⟨o, hk⟩) hnative⟩
    · exact .home hk (congrArg Custom.tag (Value.custom.inj heq)).symm
    · cases hkeeps with
      | carried native => exact absurd (.inr ⟨o, hk⟩) native
      | bytes hk' => cases hk.symm.trans hk'
      | home hk' htag =>
        obtain ⟨-, rfl⟩ := Payload.guest.inj (hk.symm.trans hk')
        exact ⟨handle, by rw [htag, hk]⟩
  | carried native => exact ⟨⟨fun _ => .carried native, fun _ => ⟨k.handle, rfl⟩⟩, fun _ => rfl⟩
  | claimed handle native hcodec' =>
    rw [hcodec] at hcodec'
    cases hcodec'

/-- **Foreign custom values in a tree.**  A tree is put into a guest state, and read back.  Unless a
codec refuses one of the values in it, the tree comes back leaf by leaf.  A custom value without a
codec comes back as it was if its payload is neither bytes nor an object of the state.  Bytes and
objects of the state come back without the tag: text as a string, other bytes under the tag `bytes`,
and an object under the name of its type. -/
theorem foreign_of_crosses (hs : s < w.states.size) (hlawful : c.Lawful w.codecs (w.state s))
    (hdisjoint : c.Disjoint w.codecs (w.state s)) (hkept : c.Undisturbed w.codecs (w.state s))
    (hx : x.Leaves (c.Fitting w.codecs (w.state s) s)) (hdepth : x.depth ≤ c.maxDepth) :
    (∃ z, c.Returns s w x z.norm ∧ x.Leafwise (fun y z => Crossed c w.codecs s y z
      ∧ ∀ k, y = .custom k → c.codecFor w.codecs k.tag = none → ReturnsForeign s k z) z)
    ∨ c.IsRefused s w x := by
  refine (crosses_leafwise hs hlawful hdisjoint hkept hdepth hx).imp_left ?_
  rintro ⟨z, hreturns, hleafwise⟩
  refine ⟨z, hreturns, hleafwise.mono fun y z hcrossed => ⟨hcrossed, fun k hy hcodec => ?_⟩⟩
  exact Crossed.returnsForeign (hy ▸ hcrossed) hcodec

/-- Without codecs, all laws hold as long as empty arrays can be marked. -/
theorem laws_of_no_codecs (hc : c.codecs = []) (hg : g₀.MarksArrays) :
    c.Lawful codecs g₀ ∧ c.Disjoint codecs g₀ ∧ c.Undisturbed codecs g₀ := by
  have hnone : ∀ tag codec, c.codecFor codecs tag ≠ some codec := by
    intro tag codec h
    rw [codecFor, codec?, hc] at h
    cases h
  have hdeclined : ∀ tag g v, c.DeclinedBut codecs tag g v := by
    intro tag g v entry hentry
    rw [hc] at hentry
    exact absurd hentry List.not_mem_nil
  exact ⟨fun _ _ _ tag _ codec _ h => absurd h (hnone tag codec),
    ⟨fun _ _ _ _ _ _ => hdeclined _ _ _, fun _ _ _ _ _ => hdeclined _ _ _⟩,
    undisturbed_of_additive hg fun tag codec h => absurd h (hnone tag codec)⟩

/-- Bytes that are no text, under a tag of their own, next to a value that is carried. -/
def tagged : Value :=
  .array [.custom ⟨"blob", .bytes ⟨#[0xff, 0xfe]⟩, 0⟩, .custom ⟨"token", .token, 1⟩]

/-- The bytes come back under another tag, and the other value as it was. -/
theorem foreign_of_crosses_bytes : ∃ handle, Returns {} 0 untouched tagged
      (.array [.custom ⟨"bytes", .bytes ⟨#[0xff, 0xfe]⟩, handle⟩, .custom ⟨"token", .token, 1⟩])
    ∧ ¬ KeepsTag 0 ⟨"blob", .bytes ⟨#[0xff, 0xfe]⟩, 0⟩ ∧ KeepsTag 0 ⟨"token", .token, 1⟩ := by
  have htoken : ¬ Custom.IsNative 0 ⟨"token", .token, 1⟩ := by
    rintro (⟨data, hdata⟩ | ⟨o, ho⟩)
    · cases hdata
    · cases ho
  have hnotext : String.fromUTF8? ⟨#[0xff, 0xfe]⟩ = none := by decide +kernel
  have hnone : ∀ k : Custom, ({} : Converter).codecFor untouched.codecs k.tag = none := fun _ => rfl
  have hfits : tagged.Leaves (Fitting {} untouched.codecs (untouched.state 0) 0) := by
    refine .array (by decide) fun x hx => ?_
    rcases List.mem_pair.1 hx with rfl | rfl
    · refine .leaf trivial fun k o hk ho => ?_
      cases hk
      cases ho
    · refine .leaf trivial fun k o hk ho => ?_
      cases hk
      cases ho
  obtain ⟨hlawful, hdisjoint, hkept⟩ : Lawful {} untouched.codecs (untouched.state 0)
      ∧ Disjoint {} untouched.codecs (untouched.state 0)
      ∧ Undisturbed {} untouched.codecs (untouched.state 0) :=
    laws_of_no_codecs rfl fun _ h => nomatch h
  rcases foreign_of_crosses (c := {}) (w := untouched) (s := 0) Nat.zero_lt_one hlawful hdisjoint
    hkept hfits (by decide) with ⟨z, hreturns, hleafwise⟩ | ⟨k, codec, _, _, _, _, -, -, h, -⟩
  · cases hleafwise with
    | leaf hx => exact hx.elim
    | @array _ zs length items =>
      obtain ⟨y, z, rfl⟩ := List.length_eq_two.1 length.symm
      cases items 0 _ y rfl rfl with
      | leaf _ _ hfirst =>
        cases items 1 _ z rfl rfl with
        | leaf _ _ hsecond =>
          obtain rfl := (hsecond.2 _ rfl (hnone _)).carried htoken
          have hblob := (hfirst.2 _ rfl (hnone _)).keeps
          cases hfirst.1 with
          | text hk htext =>
            cases hk
            rw [hnotext] at htext
            cases htext
          | bytes handle hk =>
            cases hk
            refine ⟨handle, hreturns, fun hkeeps => ?_, .carried htoken⟩
            obtain ⟨_, heq⟩ := hblob.2 hkeeps
            have htag : "bytes" = "blob" := congrArg Custom.tag (Value.custom.inj heq)
            exact absurd htag (by decide)
          | home _ hk => cases hk
          | carried native => exact absurd (.inl ⟨_, rfl⟩) native
          | claimed _ _ h => cases h
  · rw [hnone k] at h
    cases h

end Converter
end ScriptPool
