import Mathlib.Logic.Relator
import ScriptPool.Proofs.Convert.Turns
import ScriptPool.Proofs.Guest.Reordered

/-!
# Conversions do not depend on enumeration

A table converts entry by entry, in the order in which its entries are enumerated, and a conversion
ends with the first entry that does not convert.  Still neither its success nor its result depends
on the order.  What does depend on it are the handles: functions and payloads are numbered as they
cross, so in another order they cross under other numbers.

Two results are compared by a correspondence between the handles that were given out on the way.
The correspondence of a table is put together from those of its values.  It is one to one because
handles that were given out in different turns differ, and no entry has more than one turn.

## What is here

* `Value.Alike` — values that are the same but for handles that correspond.
* `World.Corresponds`, `World.Matches` — handles correspond one to one, were given out on the way,
  and those of functions stand for the same.
* `alike_putTogether`, `InTurn.corresponds` — a table, given the values in it.
* `OrderFree` — what succeeds in a world succeeds in any other that is the same up to order, and
  matches.  One induction on what is left of the depth limit shows it of conversions
  (`orderFree_toValueAt`).
* `toValue_reordered` — **conversions do not depend on the order in which tables are enumerated**.

Nothing is assumed about the tables.  The codecs must not go by the order themselves.
-/

set_option autoImplicit false

namespace ScriptPool

/-! ## Values up to fresh handles

A handle means nothing by itself; it stands for a function or for a payload.  So two results are the
same if a one to one correspondence of the handles takes one to the other, and functions that
correspond stand for the same. -/

/-- A leaf without a handle. -/
def Value.IsBare : Value → Prop
  | .nil | .bool _ | .number _ | .string _ | .error _ => True
  | _ => False

/-- Two values are the same but for handles that correspond to each other: those of functions by the
one relation, those of payloads by the other.  Values of which `Kept` is true are the same as they
are. -/
inductive Value.Alike (Kept : Value → Prop) (F H : Handle → Handle → Prop) :
    Value → Value → Prop where
  | bare {x : Value} (h : x.IsBare) : Alike Kept F H x x
  | kept {x : Value} (h : Kept x) : Alike Kept F H x x
  | function {name : String} {i j : Handle} (fresh : F i j) :
      Alike Kept F H (.function ⟨name, i⟩) (.function ⟨name, j⟩)
  | custom {tag : String} {payload : Payload} {i j : Handle} (fresh : H i j) :
      Alike Kept F H (.custom ⟨tag, payload, i⟩) (.custom ⟨tag, payload, j⟩)
  | array {xs ys : List Value} (length : xs.length = ys.length)
      (items : ∀ (i : Nat) (x y : Value), xs[i]? = some x → ys[i]? = some y →
        Alike Kept F H x y) :
      Alike Kept F H (.array xs) (.array ys)
  | object {xs ys : Fields} (names : xs.names = ys.names)
      (fields : ∀ (name : String) (x y : Value), (name, x) ∈ xs → (name, y) ∈ ys →
        Alike Kept F H x y) :
      Alike Kept F H (.object xs) (.object ys)

theorem Value.Alike.mono {Kept : Value → Prop} {F H F' H' : Handle → Handle → Prop} {x y : Value}
    (h : Alike Kept F H x y) (hF : ∀ i j, F i j → F' i j) (hH : ∀ i j, H i j → H' i j) :
    Alike Kept F' H' x y := by
  induction h with
  | bare h => exact .bare h
  | kept h => exact .kept h
  | function fresh => exact .function (hF _ _ fresh)
  | custom fresh => exact .custom (hH _ _ fresh)
  | array length _ ih => exact .array length ih
  | object names _ ih => exact .object names ih

namespace World

/-- Userdata of the world carries the value. -/
def Carries (w : World) (x : Value) : Prop := ∃ s o, (w.state s).carried? o = some x

/-- The handle of a function was given out between two worlds. -/
def Wrapped (w u : World) (i : Handle) : Prop := w.functions.size ≤ i ∧ i < u.functions.size

/-- The handle of a payload was given out between two worlds. -/
def Issued (w u : World) (i : Handle) : Prop := w.handles ≤ i ∧ i < u.handles

/-- Handles that were given out between two worlds, and between two others, correspond one to one.
Functions that correspond stand for the same. -/
structure Corresponds (w u w' u' : World) (F H : Handle → Handle → Prop) : Prop where
  functions : Relator.BiUnique F
  payloads : Relator.BiUnique H
  wrapped : ∀ i j, F i j → Wrapped w u i ∧ Wrapped w' u' j ∧ u.functions[i]? = u'.functions[j]?
  issued : ∀ i j, H i j → Issued w u i ∧ Issued w' u' j

/-- What has come of a value between two worlds is the same as what has come of it between two
others, but for fresh handles. -/
def Matches (w u w' u' : World) (x y : Value) : Prop :=
  ∃ F H, Corresponds w u w' u' F H ∧ Value.Alike w.Carries F H x y

variable {w w' u u' v v' : World} {x y : Value}

theorem biUnique_none : Relator.BiUnique fun _ _ : Handle => False :=
  ⟨fun _ _ _ h => h.elim, fun _ _ _ h => h.elim⟩

theorem biUnique_one (a b : Handle) : Relator.BiUnique fun i j => i = a ∧ j = b :=
  ⟨fun _ _ _ h h' => h.1.trans h'.1.symm, fun _ _ _ h h' => h.2.trans h'.2.symm⟩

/-- Where no handle was given out, values that are alike are the same. -/
theorem matches_of_alike (h : Value.Alike w.Carries (fun _ _ => False) (fun _ _ => False) x y) :
    Matches w w w' w' x y :=
  ⟨_, _, ⟨biUnique_none, biUnique_none, fun _ _ h => h.elim, fun _ _ h => h.elim⟩, h⟩

/-- Two worlds are akin still after handles were given out. -/
theorem Akin.dealt (h : w.Akin w') (hu : w.Dealt u) (hu' : w'.Dealt u') : u.Akin u' where
  states s := by
    rw [hu.state, hu'.state]
    exact h.states s
  codecs := by rw [hu.codecs, hu'.codecs, h.codecs]
  free := by
    rw [hu.codecs]
    exact h.free

theorem Dealt.carries (h : w.Dealt u) : u.Carries = w.Carries := by
  funext x
  simp only [Carries, h.state]

theorem Wrapped.mono (hw : w.Dealt v) (hu : v'.Dealt u) {i : Handle} (h : Wrapped v v' i) :
    Wrapped w u i := ⟨hw.size.trans h.1, h.2.trans_le hu.size⟩

theorem Issued.mono (hw : w.Dealt v) (hu : v'.Dealt u) {i : Handle} (h : Issued v v' i) :
    Issued w u i := ⟨hw.handles.trans h.1, h.2.trans_le hu.handles⟩

end World

namespace Converter

variable {c : Converter} {s id remaining : Nat} {path : List Nat} {v : GuestValue} {x y : Value}
  {w w' u u' : World} {ts ts' : List Turn} {t t' : Turn}
  {convert : GuestValue → Conversion Value} {entries entries' : List (GuestValue × GuestValue)}

/-! ## Putting the values together -/

/-- Entries that are labelled alike are the same. -/
theorem entry_eq {β : Type} {label : GuestValue → β}
    (hperm : (ts.map (·.entry)).Perm (ts'.map (·.entry)))
    (hnodup : ((ts.map (·.entry)).map (label ·.1)).Nodup) (ht : t ∈ ts) (ht' : t' ∈ ts')
    (h : label t.entry.1 = label t'.entry.1) : t.entry = t'.entry :=
  List.inj_on_of_nodup_map hnodup (List.mem_map_of_mem ht)
    (hperm.mem_iff.2 (List.mem_map_of_mem ht')) h

/-- **What is put together from values that are alike is alike**, in whichever order. -/
theorem alike_putTogether {Kept : Value → Prop} {F H : Handle → Handle → Prop}
    (hperm : (ts.map (·.entry)).Perm (ts'.map (·.entry))) {shape : Shape}
    (hshape : Shape.ofKeys ((ts.map (·.entry)).map (·.1.keyKind)) = shape)
    (hnames : shape = .object → HasNames (ts.map (·.entry)))
    (hnames' : shape = .object → HasNames (ts'.map (·.entry)))
    (h : ∀ t ∈ ts, ∀ t' ∈ ts', t.entry = t'.entry → Value.Alike Kept F H t.value t'.value) :
    Value.Alike Kept F H (putTogether shape ts) (putTogether shape ts') := by
  cases shape with
  | array n =>
    obtain ⟨-, hkeys⟩ := Shape.ofKeys_eq_array.1 hshape
    have hnodup := Shape.nodup_of_perm hkeys
    have hkeys' := (hperm.map (·.1.keyKind)).symm.trans hkeys
    rw [List.map_map] at hkeys hkeys'
    obtain ⟨xs, hxs, hlen, hitems⟩ := putTogether_array hkeys
    obtain ⟨ys, hys, hlen', hitems'⟩ := putTogether_array hkeys'
    rw [hxs, hys]
    refine .array (hlen.trans hlen'.symm) fun i x y hx hy => ?_
    obtain ⟨t, ht, hkey, rfl⟩ := hitems i x hx
    obtain ⟨t', ht', hkey', rfl⟩ := hitems' i y hy
    exact h t ht t' ht' (entry_eq hperm hnodup ht ht' (hkey.trans hkey'.symm))
  | object =>
    have hnames := hnames rfl
    have hnames' := hnames' rfl
    refine .object ?_ fun name x y hx hy => ?_
    · refine (Fields.sorted_ofList _).names_eq_of_mem_iff (Fields.sorted_ofList _) fun name => ?_
      rw [mem_names_turns hnames, mem_names_turns hnames']
      simp only [hperm.mem_iff]
    · obtain ⟨t, ht, hname, rfl⟩ := (mem_ofList_turns hnames name x).1 hx
      obtain ⟨t', ht', hname', rfl⟩ := (mem_ofList_turns hnames' name y).1 hy
      exact h t ht t' ht' (entry_eq hperm hnames.distinct ht ht' (hname.trans hname'.symm))

/-! ## Correspondences of a table -/

/-- Handles correspond if they do in turns of the same entry. -/
def Joined (ts ts' : List Turn) (P : Turn → Turn → Handle → Handle → Prop) (i j : Handle) : Prop :=
  ∃ t ∈ ts, ∃ t' ∈ ts', t.entry = t'.entry ∧ P t t' i j

/-- A handle that was given out in two turns was given out in one. -/
theorem InTurn.eq_of_given (hconvert : ∀ v, Keeps World.Dealt (convert v))
    (h : InTurn convert w ts u) {count : World → Nat}
    (hcount : ∀ {w w' : World}, w.Dealt w' → count w ≤ count w') {i : Nat} (ht : t ∈ ts)
    (ht' : t' ∈ ts) (hi : count t.before ≤ i ∧ i < count t.after)
    (hi' : count t'.before ≤ i ∧ i < count t'.after) : t = t' := by
  have hlater := (h.dealt hconvert).2.2
  have hapart := List.Pairwise.forall_of_forall_of_flip
    (R := fun a b => a = b ∨ a.after.Dealt b.before ∨ b.after.Dealt a.before)
    (fun _ _ => .inl rfl) (hlater.imp fun hab => .inr (.inl hab))
    (hlater.imp fun hba => .inr (.inr hba))
  rcases hapart ht ht' with heq | hlater | hlater
  · exact heq
  · have hle : count t.after ≤ count t'.before := hcount hlater
    omega
  · have hle : count t'.after ≤ count t.before := hcount hlater
    omega

/-- Handles that are given out in turn correspond one to one if they do so turn by turn. -/
theorem InTurn.biUnique_joined (hconvert : ∀ v, Keeps World.Dealt (convert v))
    (h : InTurn convert w ts u) (h' : InTurn convert w' ts' u')
    (hnodup : (ts.map (·.entry)).Nodup) (hnodup' : (ts'.map (·.entry)).Nodup)
    {count : World → Nat} (hcount : ∀ {w w' : World}, w.Dealt w' → count w ≤ count w')
    {P : Turn → Turn → Handle → Handle → Prop}
    (hP : ∀ t ∈ ts, ∀ t' ∈ ts', t.entry = t'.entry → Relator.BiUnique (P t t')
      ∧ ∀ i j, P t t' i j → (count t.before ≤ i ∧ i < count t.after)
        ∧ count t'.before ≤ j ∧ j < count t'.after) :
    Relator.BiUnique (Joined ts ts' P) := by
  constructor
  · rintro i k j ⟨t, ht, t', ht', heq, hp⟩ ⟨a, ha, a', ha', heq', hp'⟩
    obtain rfl := h'.eq_of_given hconvert hcount ht' ha' ((hP t ht t' ht' heq).2 i j hp).2
      ((hP a ha a' ha' heq').2 k j hp').2
    obtain rfl := List.inj_on_of_nodup_map hnodup ht ha (heq.trans heq'.symm)
    exact (hP t ht t' ht' heq).1.1 hp hp'
  · rintro i j k ⟨t, ht, t', ht', heq, hp⟩ ⟨a, ha, a', ha', heq', hp'⟩
    obtain rfl := h.eq_of_given hconvert hcount ht ha ((hP t ht t' ht' heq).2 i j hp).1
      ((hP a ha a' ha' heq').2 i k hp').1
    obtain rfl := List.inj_on_of_nodup_map hnodup' ht' ha' (heq.symm.trans heq')
    exact (hP t ht t' ht' heq).1.2 hp hp'

/-- **Correspondences of the values make one of the table.** -/
theorem InTurn.corresponds (hconvert : ∀ v, Keeps World.Dealt (convert v))
    (h : InTurn convert w ts u) (h' : InTurn convert w' ts' u')
    (hnodup : (ts.map (·.entry)).Nodup) (hnodup' : (ts'.map (·.entry)).Nodup)
    (hmatch : ∀ t ∈ ts, ∀ t' ∈ ts', t.entry = t'.entry →
      World.Matches t.before t.after t'.before t'.after t.value t'.value) :
    ∃ F H, World.Corresponds w u w' u' F H ∧ ∀ t ∈ ts, ∀ t' ∈ ts', t.entry = t'.entry →
      Value.Alike w.Carries F H t.value t'.value := by
  choose! F H hcorr halike using hmatch
  obtain ⟨-, hturns, -⟩ := h.dealt hconvert
  obtain ⟨-, hturns', -⟩ := h'.dealt hconvert
  refine ⟨Joined ts ts' F, Joined ts ts' H, ⟨?_, ?_, ?_, ?_⟩, ?_⟩
  · exact h.biUnique_joined hconvert h' hnodup hnodup' World.Dealt.size fun t ht t' ht' heq =>
      ⟨(hcorr t ht t' ht' heq).functions, fun i j hF =>
        ⟨((hcorr t ht t' ht' heq).wrapped i j hF).1, ((hcorr t ht t' ht' heq).wrapped i j hF).2.1⟩⟩
  · exact h.biUnique_joined hconvert h' hnodup hnodup' World.Dealt.handles fun t ht t' ht' heq =>
      ⟨(hcorr t ht t' ht' heq).payloads, (hcorr t ht t' ht' heq).issued⟩
  · rintro i j ⟨t, ht, t', ht', heq, hF⟩
    obtain ⟨hi, hj, hsame⟩ := (hcorr t ht t' ht' heq).wrapped i j hF
    obtain ⟨hbefore, -, hafter, -⟩ := hturns t ht
    obtain ⟨hbefore', -, hafter', -⟩ := hturns' t' ht'
    refine ⟨hi.mono hbefore hafter, hj.mono hbefore' hafter', ?_⟩
    rw [hafter.function hi.2, hafter'.function hj.2, hsame]
  · rintro i j ⟨t, ht, t', ht', heq, hH⟩
    obtain ⟨hi, hj⟩ := (hcorr t ht t' ht' heq).issued i j hH
    obtain ⟨hbefore, -, hafter, -⟩ := hturns t ht
    obtain ⟨hbefore', -, hafter', -⟩ := hturns' t' ht'
    exact ⟨hi.mono hbefore hafter, hj.mono hbefore' hafter'⟩
  · intro t ht t' ht' heq
    obtain ⟨hbefore, -⟩ := hturns t ht
    rw [← hbefore.carries]
    exact (halike t ht t' ht' heq).mono (fun i j hF => ⟨t, ht, t', ht', heq, hF⟩)
      fun i j hH => ⟨t, ht, t', ht', heq, hH⟩

/-! ## Conversions that do not depend on the order

The induction is on what is left of the limit, with all orders of all tables compared at once: both
worlds enumerate as they like. -/

/-- What succeeds in a world succeeds in any other that is the same up to order, and what comes of
it is the same but for fresh handles. -/
def OrderFree (conversion : Conversion Value) : Prop :=
  ∀ (w w' : World) (x : Value) (u : World), w.Akin w' → conversion.on w = (.ok x, u) →
    ∃ x' u', conversion.on w' = (.ok x', u') ∧ World.Matches w u w' u' x x'

theorem orderFree_bare (h : x.IsBare) : OrderFree (pure x) := by
  intro w w' y u _ hrun
  cases hrun
  exact ⟨x, w', rfl, World.matches_of_alike (.bare h)⟩

theorem orderFree_newCustom (tag : String) (payload : Payload) :
    OrderFree (newCustom tag payload) := by
  intro w w' y u _ hrun
  cases hrun
  refine ⟨_, _, rfl, fun _ _ => False, fun i j => i = w.handles ∧ j = w'.handles,
    ⟨World.biUnique_none, World.biUnique_one _ _, fun _ _ h => h.elim, ?_⟩, .custom ⟨rfl, rfl⟩⟩
  rintro i j ⟨rfl, rfl⟩
  exact ⟨⟨Nat.le_refl _, Nat.lt_succ_self _⟩, Nat.le_refl _, Nat.lt_succ_self _⟩

/-- A function is handed out under some handle, for what it is. -/
theorem orderFree_wrapFunction (k : Nat) : OrderFree (c.wrapFunction s k) := by
  intro w w' y u hw hrun
  cases hrun
  refine ⟨_, _, rfl, fun i j => i = w.functions.size ∧ j = w'.functions.size, fun _ _ => False,
    ⟨World.biUnique_one _ _, World.biUnique_none, ?_, fun _ _ h => h.elim⟩, .function ⟨rfl, rfl⟩⟩
  rintro i j ⟨rfl, rfl⟩
  have hwrapped : ∀ (w : World) (f : Callable),
      World.Wrapped w { w with functions := w.functions.push f } w.functions.size := fun w f =>
    ⟨Nat.le_refl _, by rw [Array.size_push]; exact Nat.lt_succ_self _⟩
  refine ⟨hwrapped w _, hwrapped w' _, ?_⟩
  show (w.functions.push _)[w.functions.size]? = (w'.functions.push _)[w'.functions.size]?
  rw [Array.getElem?_push_size, Array.getElem?_push_size, (hw.states s).epoch]

/-- What the codecs claim, they claim in whichever order tables are enumerated. -/
theorem on_offer {codecs : List (String × Nat)} {claim : Option (String × Payload)}
    (hw : w.Akin w') (h : (offer s v codecs).on w = (.ok claim, u)) :
    u = w ∧ (offer s v codecs).on w' = (.ok claim, w') := by
  induction codecs with
  | nil =>
    cases h
    exact ⟨rfl, rfl⟩
  | cons entry rest ih =>
    obtain ⟨tag, k⟩ := entry
    rw [offer, Conversion.on_get_bind] at h ⊢
    rw [hw.codecs]
    cases hk : w.codecs[k]? with
    | none =>
      rw [hk] at h
      exact ih h
    | some codec =>
      rw [hk] at h
      dsimp only at h ⊢
      have hfree := hw.free codec (Array.mem_of_getElem? hk) _ _ (hw.states s) v
      cases hd : codec.decode (w.state s) v with
      | error e =>
        rw [hd] at h
        cases h
      | ok claimed =>
        rw [hd] at h
        rw [hfree claimed hd]
        cases claimed with
        | none => exact ih h
        | some payload =>
          cases h
          exact ⟨rfl, rfl⟩

theorem orderFree_offer_bind {codecs : List (String × Nat)}
    {f : Option (String × Payload) → Conversion Value} (hf : ∀ claim, OrderFree (f claim)) :
    OrderFree (offer s v codecs >>= f) := by
  intro w w' x u hw hrun
  obtain ⟨claim, w₁, hoffer, hrest⟩ := Conversion.exists_of_on_bind hrun
  obtain ⟨rfl, hoffer'⟩ := on_offer hw hoffer
  obtain ⟨x', u', hrest', hmatch⟩ := hf claim w₁ w' x u hw hrest
  exact ⟨x', u', (Conversion.on_bind_ok hoffer').trans hrest', hmatch⟩

theorem orderFree_leafToValue (v : GuestValue) : OrderFree (c.leafToValue s v) := by
  cases v with
  | string bytes =>
    rw [leafToValue]
    split
    · exact orderFree_bare trivial
    · exact orderFree_newCustom _ _
  | function k => exact orderFree_wrapFunction k
  | object o =>
    cases o with
    | userdata k =>
      intro w w' x u hw hrun
      have hcarried := (hw.states s).carried? (.userdata k)
      rw [leafToValue, Conversion.on_get_bind] at hrun ⊢
      rw [hcarried]
      cases ho : (w.state s).carried? (.userdata k) with
      | some held =>
        rw [ho] at hrun
        cases hrun
        exact ⟨_, w', rfl, World.matches_of_alike (.kept ⟨s, _, ho⟩)⟩
      | none =>
        rw [ho] at hrun
        refine orderFree_offer_bind (fun claim => ?_) w w' x u hw hrun
        cases claim with
        | some claim => exact orderFree_newCustom _ _
        | none => exact orderFree_newCustom _ _
    | _ => exact orderFree_newCustom _ _
  | _ => exact orderFree_bare trivial

/-- **The entries of a table can come in any order.** -/
theorem on_entriesToValue_perm (hconvert : ∀ v, Keeps World.Dealt (convert v))
    (hfree : ∀ v, OrderFree (convert v)) (hw : w.Akin w') (hperm : entries.Perm entries')
    (h : (entriesToValue convert entries).on w = (.ok x, u)) :
    ∃ x' u', (entriesToValue convert entries').on w' = (.ok x', u')
      ∧ World.Matches w u w' u' x x' := by
  obtain ⟨hnames, ts, hts, rfl, rfl⟩ := on_entriesToValue.1 h
  obtain ⟨-, hturns, -⟩ := hts.dealt hconvert
  -- a value that converted in its turn converts in any other
  have hany : ∀ entry ∈ entries', ∀ v, w'.Dealt v → ∃ y v', (convert entry.2).on v = (.ok y, v') := by
    intro entry he v hv
    obtain ⟨t, ht, rfl⟩ := List.mem_map.1 (hperm.mem_iff.2 he)
    obtain ⟨hbefore, -, -, hrun⟩ := hturns t ht
    obtain ⟨y, v', hrun', -⟩ := hfree _ _ _ _ _ (hw.dealt hbefore hv) hrun
    exact ⟨y, v', hrun'⟩
  obtain ⟨ts', u', hts', rfl⟩ := exists_inTurn hconvert hany
  obtain ⟨-, hturns', -⟩ := hts'.dealt hconvert
  have hshape := Shape.ofKeys_perm (hperm.map (·.1.keyKind))
  have hnames' : Shape.ofKeys ((ts'.map (·.entry)).map (·.1.keyKind)) = .object →
      HasNames (ts'.map (·.entry)) := fun hobject =>
    (hnames (hshape.symm.trans hobject)).perm hperm
  have hnodup := nodup_entries hnames
  obtain ⟨F, H, hcorr, halike⟩ := hts.corresponds hconvert hts' hnodup
    (hperm.nodup_iff.1 hnodup) fun t ht t' ht' heq => by
      obtain ⟨hbefore, -, -, hrun⟩ := hturns t ht
      obtain ⟨hbefore', -, -, hrun'⟩ := hturns' t' ht'
      obtain ⟨y, v', hrun'', hmatch⟩ := hfree _ _ _ _ _ (hw.dealt hbefore hbefore') hrun
      rw [heq, hrun'] at hrun''
      cases hrun''
      exact hmatch
  refine ⟨_, u', on_entriesToValue.2 ⟨hnames', ts', hts', rfl, rfl⟩, F, H, hcorr, ?_⟩
  rw [hshape]
  exact alike_putTogether hperm rfl hnames (fun hobject => hnames' (hshape.trans hobject)) halike

theorem orderFree_tableToValue {descend : List Nat → GuestValue → Conversion Value}
    (hdescend : ∀ path v, Keeps World.Dealt (descend path v))
    (hfree : ∀ path v, OrderFree (descend path v)) (remaining : Nat) (path : List Nat) (id : Nat) :
    OrderFree (c.tableToValue s remaining path descend id) := by
  intro w w' x u hw hrun
  by_cases hid : id ∈ path
  · rw [on_tableToValue_circular hid] at hrun
    cases hrun
  by_cases hr : remaining = 0
  · rw [hr, on_tableToValue_tooDeep hid] at hrun
    cases hrun
  obtain ⟨hperm, -⟩ := (hw.states s).tables id
  by_cases hempty : ((w.state s).table id).entries = []
  · have hempty' : ((w'.state s).table id).entries = [] := (hempty ▸ hperm).nil_eq.symm
    have hmarked := (hw.states s).isMarkedArray id
    cases hm : (w.state s).isMarkedArray ((w.state s).table id) with
    | error f =>
      rw [on_tableToValue_unreadable hid hr hempty hm] at hrun
      cases hrun
    | ok marked =>
      rw [on_tableToValue_empty hid hr hempty hm] at hrun
      cases hrun
      refine ⟨_, w', on_tableToValue_empty hid hr hempty' (hmarked.trans hm),
        World.matches_of_alike ?_⟩
      cases marked with
      | true => exact .array rfl fun _ _ _ h => absurd h (by rw [List.getElem?_nil]; exact nofun)
      | false => exact .object rfl fun _ _ _ h => absurd h List.not_mem_nil
  · have hsome : ((w'.state s).table id).entries ≠ [] := fun h => hempty (h ▸ hperm).eq_nil
    rw [on_tableToValue_entries hid hr hempty] at hrun
    rw [on_tableToValue_entries hid hr hsome]
    exact on_entriesToValue_perm (hdescend _) (hfree _) hw hperm hrun

/-- **Conversions do not depend on the order**, however much of the limit is left. -/
theorem orderFree_toValueAt (remaining : Nat) :
    ∀ path v, OrderFree (c.toValueAt s remaining path v) := by
  induction remaining with
  | zero =>
    intro path v
    cases v with
    | table id =>
      rw [toValueAt]
      refine orderFree_offer_bind fun claim => ?_
      cases claim with
      | some claim => exact orderFree_newCustom _ _
      | none =>
        exact orderFree_tableToValue (fun _ _ => keeps_pure _)
          (fun _ _ => orderFree_bare (x := .nil) trivial) 0 path id
    | _ => exact orderFree_leafToValue _
  | succ left ih =>
    intro path v
    cases v with
    | table id =>
      rw [toValueAt]
      refine orderFree_offer_bind fun claim => ?_
      cases claim with
      | some claim => exact orderFree_newCustom _ _
      | none =>
        exact orderFree_tableToValue (c.keeps_toValueAt s World.handsOut_dealt trivial left) ih
          (left + 1) path id
    | _ => exact orderFree_leafToValue _

/-! ## From the root -/

/-- **A conversion does not depend on the order in which tables are enumerated.**  If the worlds are
the same but for these orders, and the codecs do not go by them, a value converts in one exactly if
it converts in the other, and the results are the same but for the handles that were given out on
the way: handles of functions and of payloads correspond one to one, and functions that correspond
stand for the same function of the guest. -/
theorem toValue_reordered (h : w.Reordered w') (hfree : ∀ codec ∈ w.codecs, codec.IsOrderFree)
    (v : GuestValue) :
    ((∃ x u, (c.toValue s v).on w = (.ok x, u)) ↔ ∃ x u, (c.toValue s v).on w' = (.ok x, u))
      ∧ ∀ x u x' u', (c.toValue s v).on w = (.ok x, u) → (c.toValue s v).on w' = (.ok x', u') →
        World.Matches w u w' u' x x' := by
  have hw := h.akin hfree
  have hconversion : OrderFree (c.toValue s v) := orderFree_toValueAt c.maxDepth [] v
  refine ⟨⟨fun ⟨x, u, hx⟩ => ?_, fun ⟨x, u, hx⟩ => ?_⟩, fun x u x' u' hx hx' => ?_⟩
  · obtain ⟨x', u', hx', -⟩ := hconversion w w' x u hw hx
    exact ⟨x', u', hx'⟩
  · obtain ⟨x', u', hx', -⟩ := hconversion w' w x u hw.symm hx
    exact ⟨x', u', hx'⟩
  · obtain ⟨y, v', hy, hmatch⟩ := hconversion w w' x u hw hx
    rw [hx'] at hy
    cases hy
    exact hmatch

/-- A world with two functions and one table, and a codec that looks at tables. -/
def tabled (t : GuestTable) : World where
  states := #[{ tables := #[t], functions := #[.library "print", .library "type"] }]
  codecs := #[Codec.pair "point"]

theorem reordered_tabled {t t' : GuestTable} (h : t.Reordered t') :
    (tabled t).Reordered (tabled t') where
  states s := by
    cases s with
    | zero =>
      refine ⟨fun id => ?_, rfl⟩
      cases id with
      | zero => exact h
      | succ id => exact ⟨.refl _, rfl⟩
    | succ s => exact ⟨fun id => ⟨.refl _, rfl⟩, rfl⟩
  rest := rfl

/-- A list of the two functions, and the same with the second enumerated first. -/
def callbacks : GuestTable where
  entries := [(.integer 1, .function 0), (.integer 2, .function 1)]
  keyed := (GuestTable.IsKeyed.singleton rfl rfl).append rfl rfl
    fun _ h => by rw [List.mem_singleton.1 h]; rfl

def callbacksReversed : GuestTable where
  entries := [(.integer 2, .function 1), (.integer 1, .function 0)]
  keyed := (GuestTable.IsKeyed.singleton rfl rfl).append rfl rfl
    fun _ h => by rw [List.mem_singleton.1 h]; rfl

theorem toValue_reordered_callbacks :
    let c : Converter := { codecs := [("point", 0)] }
    let x : Value := .array [.function ⟨"anonymous", 0⟩, .function ⟨"anonymous", 1⟩]
    let x' : Value := .array [.function ⟨"anonymous", 1⟩, .function ⟨"anonymous", 0⟩]
    (tabled callbacks).Reordered (tabled callbacksReversed)
      ∧ (∀ codec ∈ (tabled callbacks).codecs, codec.IsOrderFree)
      ∧ ∃ u u', (c.toValue 0 (.table 0)).on (tabled callbacks) = (.ok x, u)
        ∧ (c.toValue 0 (.table 0)).on (tabled callbacksReversed) = (.ok x', u')
        ∧ World.Matches (tabled callbacks) u (tabled callbacksReversed) u' x x' := by
  intro c x x'
  have hw : (tabled callbacks).Reordered (tabled callbacksReversed) :=
    reordered_tabled ⟨.swap _ _ _, rfl⟩
  have hfree : ∀ codec ∈ (tabled callbacks).codecs, codec.IsOrderFree := by
    intro codec hcodec
    have hpair : codec = Codec.pair "point" := List.mem_singleton.1 (Array.mem_def.1 hcodec)
    rw [hpair]
    exact Codec.isOrderFree_pair _
  have hx : ((c.toValue 0 (.table 0)).on (tabled callbacks)).1 = .ok x := by cbv
  have hx' : ((c.toValue 0 (.table 0)).on (tabled callbacksReversed)).1 = .ok x' := by cbv
  exact ⟨hw, hfree, _, _, Prod.ext hx rfl, Prod.ext hx' rfl,
    (toValue_reordered hw hfree (.table 0)).2 _ _ _ _ (Prod.ext hx rfl) (Prod.ext hx' rfl)⟩

end Converter
end ScriptPool
