import Mathlib.Data.List.Nodup
import ScriptPool.Proofs.Convert.GuestTrip
import ScriptPool.Proofs.Convert.Turns

/-!
# Keys and field names

A table whose keys are not `1, …, n` becomes an object, and its keys become names.  Each entry has
its own field there, since a table with two keys of one name, or with a key that has no name, is
refused.  Text stands for itself as a name.  Other strings are keys that a guest can have as well;
the name of such a key has replacement characters in the place of what is not text, so it is not the
key, and nothing tells it from the name of the text with these characters.

## What is here

* `Inside`, `Value.reach?` — what stands at a place in a value of the guest, by the path of keys
  that leads there, and what stands at that place in what the value has become.
* `tableOutcome` — the ways in which the conversion of a table can go.
* `toValueAt_mono` — what converts inside other tables converts by itself, to the same.
* `toValueAt_inside` — **a conversion goes place by place**.
* `Refusal` — what there is in a value for which a conversion can fail.
* `names_of_toValue` — **what becomes of keys**, at any nesting.
-/

set_option autoImplicit false

namespace ScriptPool

/-! ## Bytes as names -/

/-- The text of a run of bytes has just these bytes if they are text, and other ones if they are
not. -/
theorem Text.toUTF8_decodeLossy {bytes : ByteArray} :
    (decodeLossy bytes).toUTF8 = bytes ↔ (String.fromUTF8? bytes).isSome = true := by
  constructor
  · intro heq
    rw [← heq, GuestValue.fromUTF8?_toUTF8]
    rfl
  · intro hsome
    obtain ⟨text, htext⟩ := Option.isSome_iff_exists.1 hsome
    rw [decodeLossy, htext]
    exact Converter.toUTF8_of_fromUTF8? htext

theorem GuestValue.fieldName_error {key : GuestValue} {e : ConvertError}
    (h : key.fieldName = .error e) : e = .unsupported (key.typeName ++ " as object key") := by
  cases key with
  | string bytes => cases h
  | integer n => cases h
  | float x => cases h
  | boolean b => cases h
  | _ => exact (Except.error.inj h).symm

/-! ## Places in what a table has become

What is said about keys is said at any depth, so places are given by paths of keys of the guest, and
a path leads through what the tables on it have become. -/

namespace Value

/-- What stands under a key of the guest. -/
def under? (key : GuestValue) : Value → Option Value
  | .array items =>
      match key.keyKind with
      | .index i => if 1 ≤ i then items[(i - 1).toNat]? else none
      | .name => none
  | .object fields =>
      match key.fieldName with
      | .ok name => Fields.get? fields name
      | .error _ => none
  | _ => none

/-- What stands at the end of a path of keys. -/
def reach? : List GuestValue → Value → Option Value
  | [], x => some x
  | key :: path, x => (x.under? key).bind (reach? path)

theorem under?_array {key : GuestValue} {place : Nat} {items : List Value}
    (h : key.keyKind = Shape.keyOf place) : (Value.array items).under? key = items[place]? := by
  have hplace : ((place : Int) + 1 - 1).toNat = place := by omega
  rw [under?, h]
  show (if 1 ≤ (place : Int) + 1 then items[((place : Int) + 1 - 1).toNat]? else none) = _
  rw [if_pos (by omega), hplace]

theorem under?_object {key : GuestValue} {name : String} {fields : Fields}
    (h : key.fieldName = .ok name) :
    (Value.object fields).under? key = Fields.get? fields name := by
  rw [under?, h]

end Value

namespace Converter

/-- A value stands at a place in another one, and no codec claims the tables on the way. -/
inductive Inside (c : Converter) (s : Nat) (w : World) (a : GuestValue) :
    List GuestValue → GuestValue → Prop where
  | here : Inside c s w a [] a
  | entry {id : Nat} {key next : GuestValue} {path : List GuestValue}
      (unclaimed : (offer s (.table id) c.codecs).on w = (.ok none, w))
      (h : (key, next) ∈ ((w.state s).table id).entries) (rest : Inside c s w a path next) :
      Inside c s w a (key :: path) (.table id)

variable {c : Converter} {s id n : Nat} {ids : List Nat} {w w' u : World} {v a b : GuestValue}
  {x : Value} {e : ConvertError} {path rest : List GuestValue}
  {entries : List (GuestValue × GuestValue)} {convert convert' : GuestValue → Conversion Value}

theorem Inside.append (hb : Inside c s w b path v) (ha : Inside c s w a rest b) :
    Inside c s w a (path ++ rest) v := by
  induction hb with
  | here => exact ha
  | entry unclaimed h _ ih => exact .entry unclaimed h ih

/-! ## The conversion of a table -/

/-- How the conversion of a table goes, which is inside the tables `ids` and of which so much of
the depth limit is left. -/
inductive TableOutcome (c : Converter) (s : Nat) (w : World) (ids : List Nat) (id : Nat) :
    Nat → Except ConvertError Value × World → Prop where
  | refused {n : Nat} {e : ConvertError}
      (h : (offer s (.table id) c.codecs).on w = (.error e, w)) :
      TableOutcome c s w ids id n (.error e, w)
  | claimed {n : Nat} {tag : String} {payload : Payload}
      {out : Except ConvertError Value × World}
      (h : (offer s (.table id) c.codecs).on w = (.ok (some (tag, payload)), w))
      (run : (newCustom tag payload).on w = out) : TableOutcome c s w ids id n out
  | circular {n : Nat} (h : (offer s (.table id) c.codecs).on w = (.ok none, w)) (again : id ∈ ids) :
      TableOutcome c s w ids id n (.error .circular, w)
  | tooDeep (h : (offer s (.table id) c.codecs).on w = (.ok none, w)) (new : id ∉ ids) :
      TableOutcome c s w ids id 0 (.error (.tooDeep c.maxDepth), w)
  | empty {left : Nat} {marked : Bool} {x : Value}
      (h : (offer s (.table id) c.codecs).on w = (.ok none, w)) (new : id ∉ ids)
      (none : ((w.state s).table id).entries = [])
      (hm : (w.state s).isMarkedArray ((w.state s).table id) = .ok marked)
      (hx : (if marked then .array [] else .object []) = x) :
      TableOutcome c s w ids id (left + 1) (.ok x, w)
  | unreadable {left : Nat} {f : GuestFault}
      (h : (offer s (.table id) c.codecs).on w = (.ok none, w)) (new : id ∉ ids)
      (none : ((w.state s).table id).entries = [])
      (hm : (w.state s).isMarkedArray ((w.state s).table id) = .error f) :
      TableOutcome c s w ids id (left + 1) (.error (.guest f.message), w)
  | entries {left : Nat} {out : Except ConvertError Value × World}
      (h : (offer s (.table id) c.codecs).on w = (.ok none, w)) (new : id ∉ ids)
      (some : ((w.state s).table id).entries ≠ [])
      (run : (entriesToValue (c.toValueAt s left (id :: ids))
        ((w.state s).table id).entries).on w = out) :
      TableOutcome c s w ids id (left + 1) out

/-- A codec that claims a table has the say. -/
theorem on_toValueAt_claimed {tag : String} {payload : Payload}
    (h : (offer s (.table id) c.codecs).on w = (.ok (some (tag, payload)), w)) :
    (c.toValueAt s n ids (.table id)).on w = (newCustom tag payload).on w := by
  cases n with
  | zero =>
    rw [toValueAt]
    exact Conversion.on_bind_ok h
  | succ left =>
    rw [toValueAt]
    exact Conversion.on_bind_ok h

/-- **The ways in which the conversion of a table can go.** -/
theorem tableOutcome (c : Converter) (s : Nat) (w : World) (ids : List Nat) (id n : Nat) :
    TableOutcome c s w ids id n ((c.toValueAt s n ids (.table id)).on w) := by
  have hoffer := on_offer_of_dealt (s := s) (v := .table id) (.refl w) c.codecs
  rcases hr : ((offer s (.table id) c.codecs).on w).1 with e | _ | ⟨tag, payload⟩
  · rw [hr] at hoffer
    have hrun : (c.toValueAt s n ids (.table id)).on w = (.error e, w) := by
      cases n with
      | zero =>
        rw [toValueAt]
        exact Conversion.on_bind_error hoffer
      | succ left =>
        rw [toValueAt]
        exact Conversion.on_bind_error hoffer
    rw [hrun]
    exact .refused hoffer
  · rw [hr] at hoffer
    cases n with
    | zero =>
      have hrun : (c.toValueAt s 0 ids (.table id)).on w
          = (c.tableToValue s 0 ids (fun _ _ => pure .nil) id).on w := by
        rw [toValueAt]
        exact Conversion.on_bind_ok hoffer
      rw [hrun]
      by_cases hid : id ∈ ids
      · rw [on_tableToValue_circular hid]
        exact .circular hoffer hid
      · rw [on_tableToValue_tooDeep hid]
        exact .tooDeep hoffer hid
    | succ left =>
      rw [on_toValueAt_unclaimed hoffer]
      by_cases hid : id ∈ ids
      · rw [on_tableToValue_circular hid]
        exact .circular hoffer hid
      · by_cases hnone : ((w.state s).table id).entries = []
        · cases hm : (w.state s).isMarkedArray ((w.state s).table id) with
          | error f =>
            rw [on_tableToValue_unreadable hid (Nat.succ_ne_zero left) hnone hm]
            exact .unreadable hoffer hid hnone hm
          | ok marked =>
            rw [on_tableToValue_empty hid (Nat.succ_ne_zero left) hnone hm]
            exact .empty hoffer hid hnone hm rfl
        · rw [on_tableToValue_entries hid (Nat.succ_ne_zero left) hnone]
          exact .entries hoffer hid hnone rfl
  · rw [hr] at hoffer
    rw [on_toValueAt_claimed hoffer]
    exact .claimed hoffer rfl

/-- Values that convert one after the other do so in every conversion that agrees on them. -/
theorem InTurn.imp {ts : List Turn} (h : InTurn convert w ts u)
    (himp : ∀ {v w x u}, (convert v).on w = (.ok x, u) → (convert' v).on w = (.ok x, u)) :
    InTurn convert' w ts u := by
  induction h with
  | nil w => exact .nil w
  | cons h _ ih => exact .cons (himp h) ih

/-- **What converts inside other tables converts inside fewer**, and if there is more of the depth
limit left, to the same. -/
theorem toValueAt_mono (n : Nat) : ∀ {m : Nat} {ids ids' : List Nat} {v : GuestValue} {w : World}
    {x : Value} {u : World}, n ≤ m → ids' ⊆ ids → (c.toValueAt s n ids v).on w = (.ok x, u) →
      (c.toValueAt s m ids' v).on w = (.ok x, u) := by
  induction n with
  | zero =>
    intro m ids ids' v w x u _ _ hrun
    by_cases hv : ∀ id, v ≠ .table id
    · rw [on_toValueAt_leaf hv] at hrun ⊢
      exact hrun
    · obtain ⟨id, hid⟩ := not_forall_not.1 hv
      subst hid
      have hout := tableOutcome c s w ids id 0
      rw [hrun] at hout
      cases hout with
      | claimed hoffer hrun => rwa [on_toValueAt_claimed hoffer]
  | succ left ih =>
    intro m ids ids' v w x u hm hsub hrun
    by_cases hv : ∀ id, v ≠ .table id
    · rw [on_toValueAt_leaf hv] at hrun ⊢
      exact hrun
    · obtain ⟨id, hid⟩ := not_forall_not.1 hv
      subst hid
      obtain ⟨m, rfl⟩ : ∃ k, m = k + 1 := ⟨m - 1, by omega⟩
      have hout := tableOutcome c s w ids id (left + 1)
      rw [hrun] at hout
      cases hout with
      | claimed hoffer hrun => rwa [on_toValueAt_claimed hoffer]
      | empty hoffer hnew hnone hmarked hx =>
        rw [on_toValueAt_unclaimed hoffer, on_tableToValue_empty (fun h => hnew (hsub h))
          (Nat.succ_ne_zero m) hnone hmarked, hx]
      | entries hoffer hnew hsome hrun =>
        rw [on_toValueAt_unclaimed hoffer,
          on_tableToValue_entries (fun h => hnew (hsub h)) (Nat.succ_ne_zero m) hsome]
        obtain ⟨hnames, ts, hts, hentries, hx⟩ := on_entriesToValue.1 hrun
        refine on_entriesToValue.2 ⟨hnames, ts, hts.imp fun h => ?_, hentries, hx⟩
        exact ih (Nat.le_of_succ_le_succ hm) (List.cons_subset_cons id hsub) h

/-! ## Place by place

A conversion of a value is, at every place in it, the conversion of what stands there, if only for
tables that no codec claims.  So a table may be looked at by itself. -/

/-- A value is converted to another in the course of a conversion. -/
def Converted (c : Converter) (s : Nat) (w u : World) (a : GuestValue) (y : Value) : Prop :=
  ∃ w₁ w₂, w.Dealt w₁ ∧ (c.toValue s a).on w₁ = (.ok y, w₂) ∧ w₂.Dealt u

/-- The value of every entry is found under its key in what a table has become. -/
theorem under?_of_entries (hconvert : ∀ v, Keeps World.Dealt (convert v))
    (h : (entriesToValue convert entries).on w = (.ok x, u)) {key : GuestValue}
    (hentry : (key, a) ∈ entries) : ∃ y, x.under? key = some y
      ∧ ∃ w₁ w₂, w.Dealt w₁ ∧ (convert a).on w₁ = (.ok y, w₂) ∧ w₂.Dealt u := by
  obtain ⟨hnames, ts, hts, rfl, rfl⟩ := on_entriesToValue.1 h
  obtain ⟨-, hturns, -⟩ := hts.dealt hconvert
  obtain ⟨t, ht, heq⟩ := List.mem_map.1 hentry
  cases hshape : Shape.ofKeys ((ts.map (·.entry)).map (·.1.keyKind)) with
  | array length =>
    obtain ⟨-, hkeys⟩ := Shape.ofKeys_eq_array.1 hshape
    have hnodup := Shape.nodup_of_perm hkeys
    obtain ⟨place, hplace, hkey⟩ := List.mem_map.1
      (hkeys.mem_iff.1 (List.mem_map_of_mem (f := (·.1.keyKind)) hentry))
    rw [List.map_map] at hkeys
    obtain ⟨items, hitems, hlength, hat⟩ := putTogether_array hkeys
    have hlt : place < items.length := hlength ▸ List.mem_range.1 hplace
    -- the turn at the place of the key is the one of this entry
    obtain ⟨t', ht', hkey', hvalue⟩ := hat place _ (List.getElem?_eq_getElem hlt)
    have hsame : t'.entry = (key, a) := List.inj_on_of_nodup_map hnodup
      (List.mem_map_of_mem ht') hentry (hkey'.trans hkey)
    obtain ⟨hbefore, -, hafter, hrun⟩ := hturns t' ht'
    refine ⟨t'.value, ?_, t'.before, t'.after, hbefore, ?_, hafter⟩
    · rw [hitems, Value.under?_array hkey.symm, List.getElem?_eq_getElem hlt, hvalue]
    · rwa [hsame] at hrun
  | object =>
    obtain ⟨name, hname⟩ := (hnames hshape).named (key, a) hentry
    obtain ⟨hbefore, -, hafter, hrun⟩ := hturns t ht
    refine ⟨t.value, ?_, t.before, t.after, hbefore, ?_, hafter⟩
    · rw [putTogether, Value.under?_object hname, Fields.get?_eq_some (Fields.sorted_ofList _),
        mem_ofList_turns (hnames hshape)]
      exact ⟨t, ht, heq ▸ hname, rfl⟩
    · rwa [heq] at hrun

/-- **A conversion goes place by place**: what stands at a place becomes what it is converted to by
itself. -/
theorem toValueAt_inside (hinside : Inside c s w a path v) :
    ∀ {n : Nat} {ids : List Nat} {w₁ : World} {x : Value} {u : World}, w.Dealt w₁ →
      n ≤ c.maxDepth → (c.toValueAt s n ids v).on w₁ = (.ok x, u) →
      ∃ y, x.reach? path = some y ∧ Converted c s w u a y := by
  induction hinside with
  | here =>
    intro n ids w₁ x u hw hn hrun
    exact ⟨x, rfl, w₁, u, hw, toValueAt_mono n hn (List.nil_subset ids) hrun, .refl u⟩
  | @entry id key next path unclaimed hentry _ ih =>
    intro n ids w₁ x u hw hn hrun
    have hoffer := on_offer_of_dealt (s := s) (v := .table id) hw c.codecs
    rw [unclaimed] at hoffer
    rw [← hw.state s] at hentry
    have hout := tableOutcome c s w₁ ids id n
    rw [hrun] at hout
    cases hout with
    | claimed h =>
      rw [hoffer] at h
      cases h
    | empty _ _ hnone =>
      rw [hnone] at hentry
      exact absurd hentry List.not_mem_nil
    | @entries left _ _ _ _ hrun =>
      obtain ⟨y, hy, w₂, w₃, hbefore, hconvert, hafter⟩ := under?_of_entries
        (c.keeps_toValueAt s World.handsOut_dealt trivial left _) hrun hentry
      obtain ⟨z, hz, w₄, w₅, hbefore', hconvert', hafter'⟩ :=
        ih (hw.trans hbefore) (Nat.le_of_succ_le hn) hconvert
      refine ⟨z, ?_, w₄, w₅, hbefore', hconvert', hafter'.trans hafter⟩
      rw [Value.reach?, hy]
      exact hz

/-! ## Keys without names -/

/-- Some keys cannot be field names together, and what a conversion says of it. -/
inductive Unnamed (entries : List (GuestValue × GuestValue)) : ConvertError → Prop where
  /-- A key is neither a string nor a number nor a boolean. -/
  | nameless {key a : GuestValue} (h : (key, a) ∈ entries)
      (hkey : ∀ name, key.fieldName ≠ .ok name) :
      Unnamed entries (.unsupported (key.typeName ++ " as object key"))
  /-- Two keys have one name. -/
  | twice {first second : GuestValue × GuestValue} {name : String}
      (h : [first, second].Sublist entries) (hfirst : first.1.fieldName = .ok name)
      (hsecond : second.1.fieldName = .ok name) :
      Unnamed entries (.unsupported ("duplicate object key \"" ++ name ++ "\""))

/-- There is something to say exactly if not all keys have names of their own. -/
theorem hasNames_iff : HasNames entries ↔ ∀ e, ¬ Unnamed entries e := by
  constructor
  · rintro ⟨hnamed, hdistinct⟩ e h
    cases h with
    | nameless h hkey =>
      obtain ⟨name, hname⟩ := hnamed _ h
      exact hkey name hname
    | twice h hfirst hsecond =>
      have hpair := (h.map (·.1.fieldName)).nodup hdistinct
      rw [List.map_cons, List.map_singleton, hfirst, hsecond] at hpair
      exact (List.nodup_cons.1 hpair).1 List.mem_cons_self
  · intro h
    have hnamed : ∀ entry ∈ entries, ∃ name, entry.1.fieldName = .ok name := by
      intro entry hentry
      by_contra hnone
      exact h _ (.nameless hentry (not_exists.1 hnone))
    refine ⟨hnamed, List.nodup_iff_sublist.2 fun label hsub => ?_⟩
    obtain ⟨pair, hpair, heq⟩ := List.sublist_map_iff.1 hsub
    obtain ⟨first, pair, rfl, hfirst, heq⟩ := List.map_eq_cons_iff.1 heq.symm
    obtain ⟨second, pair, rfl, hsecond, heq⟩ := List.map_eq_cons_iff.1 heq
    obtain rfl := List.map_eq_nil_iff.1 heq
    obtain ⟨name, hname⟩ := hnamed first (hpair.subset List.mem_cons_self)
    exact h _ (.twice hpair hname (hsecond.trans (hfirst.symm.trans hname)))

/-- Items fail to convert because one of them does. -/
theorem placedItems_error (hconvert : ∀ v, Keeps World.Dealt (convert v)) : ∀ {w : World},
    (placedItems convert entries).on w = (.error e, u) → ∃ entry ∈ entries, ∃ w₁ w₂, w.Dealt w₁
      ∧ (convert entry.2).on w₁ = (.error e, w₂) := by
  induction entries with
  | nil =>
    intro w h
    cases h
  | cons entry rest ih =>
    intro w h
    obtain ⟨key, v⟩ := entry
    have hlater : ∀ w₁, w.Dealt w₁ → (placedItems convert rest).on w₁ = (.error e, u) →
        ∃ entry ∈ (key, v) :: rest, ∃ w₁ w₂, w.Dealt w₁
          ∧ (convert entry.2).on w₁ = (.error e, w₂) := by
      intro w₁ hw h
      obtain ⟨entry, hentry, w₂, w₃, hbefore, hrun⟩ := ih h
      exact ⟨entry, List.mem_cons_of_mem _ hentry, w₂, w₃, hw.trans hbefore, hrun⟩
    rw [placedItems] at h
    split at h
    · rcases hv : (convert v).on w with ⟨_ | x, w₁⟩
      · rw [Conversion.on_bind_error hv] at h
        cases h
        exact ⟨(key, v), List.mem_cons_self, w, u, .refl w, hv⟩
      · have hdealt : w.Dealt ((convert v).on w).2 := hconvert v w
        rw [hv] at hdealt
        rw [Conversion.on_bind_ok hv] at h
        rcases hrest : (placedItems convert rest).on w₁ with ⟨_ | items, w₂⟩
        · rw [Conversion.on_bind_error hrest] at h
          cases h
          exact hlater w₁ hdealt hrest
        · rw [Conversion.on_bind_ok hrest] at h
          cases h
    · exact hlater w (.refl w) h

/-- Fields fail to convert because of the names of their keys and of the keys before them, or
because the value of one of them does. -/
theorem namedFields_error (hconvert : ∀ v, Keeps World.Dealt (convert v)) :
    ∀ {w : World} {sofar : Fields} {before : List (GuestValue × GuestValue)},
      (∀ name ∈ sofar.names, ∃ entry ∈ before, entry.1.fieldName = .ok name) →
      (namedFields convert sofar entries).on w = (.error e, u) →
      Unnamed (before ++ entries) e ∨ ∃ entry ∈ entries, ∃ w₁ w₂, w.Dealt w₁
        ∧ (convert entry.2).on w₁ = (.error e, w₂) := by
  induction entries with
  | nil =>
    intro w sofar before _ h
    cases h
  | cons entry rest ih =>
    intro w sofar before hsofar h
    obtain ⟨key, v⟩ := entry
    rw [namedFields, Conversion.on_liftM_bind] at h
    cases hname : key.fieldName with
    | error f =>
      rw [hname] at h
      cases h
      rw [GuestValue.fieldName_error hname]
      refine .inl (.nameless (a := v) (List.mem_append_right before List.mem_cons_self) fun name => ?_)
      rw [hname]
      exact fun h => by cases h
    | ok name =>
      rw [hname] at h
      dsimp only at h
      split at h
      · rename_i hcontains
        cases h
        obtain ⟨first, hfirst, hlabel⟩ := hsofar name (Fields.contains_eq_true.1 hcontains)
        have hpair : [first, (key, v)].Sublist (before ++ (key, v) :: rest) :=
          (List.singleton_sublist.2 hfirst).append (List.singleton_sublist.2 List.mem_cons_self)
        exact .inl (.twice hpair hlabel hname)
      · rcases hv : (convert v).on w with ⟨_ | x, w₁⟩
        · rw [Conversion.on_bind_error hv] at h
          cases h
          exact .inr ⟨(key, v), List.mem_cons_self, w, u, .refl w, hv⟩
        · have hdealt : w.Dealt ((convert v).on w).2 := hconvert v w
          rw [hv] at hdealt
          rw [Conversion.on_bind_ok hv] at h
          have hnext : ∀ other ∈ (Fields.insert name x sofar).names,
              ∃ entry ∈ before ++ [(key, v)], entry.1.fieldName = .ok other := by
            intro other hother
            rcases Fields.mem_names_insert.1 hother with rfl | hother
            · exact ⟨(key, v), List.mem_append_right before List.mem_cons_self, hname⟩
            · obtain ⟨entry, hentry, hlabel⟩ := hsofar other hother
              exact ⟨entry, List.mem_append_left _ hentry, hlabel⟩
          rcases ih hnext h with hunnamed | ⟨entry, hentry, w₂, w₃, hbefore, hrun⟩
          · rw [List.append_assoc, List.singleton_append] at hunnamed
            exact .inl hunnamed
          · exact .inr ⟨entry, List.mem_cons_of_mem _ hentry, w₂, w₃, hdealt.trans hbefore, hrun⟩

/-- **A table fails to convert because of its keys or because of a value in it.** -/
theorem entriesToValue_error (hconvert : ∀ v, Keeps World.Dealt (convert v))
    (h : (entriesToValue convert entries).on w = (.error e, u)) :
    (Shape.ofKeys (entries.map (·.1.keyKind)) = .object ∧ Unnamed entries e)
      ∨ ∃ entry ∈ entries, ∃ w₁ w₂, w.Dealt w₁ ∧ (convert entry.2).on w₁ = (.error e, w₂) := by
  rw [entriesToValue] at h
  cases hshape : Shape.ofKeys (entries.map (·.1.keyKind)) with
  | array length =>
    rw [hshape] at h
    dsimp only at h
    rcases hitems : (placedItems convert entries).on w with ⟨_ | items, w₁⟩
    · rw [Conversion.on_bind_error hitems] at h
      cases h
      exact .inr (placedItems_error hconvert hitems)
    · rw [Conversion.on_bind_ok hitems] at h
      cases h
  | object =>
    rw [hshape] at h
    dsimp only at h
    rcases hfields : (namedFields convert [] entries).on w with ⟨_ | fields, w₁⟩
    · rw [Conversion.on_bind_error hfields] at h
      cases h
      have hnone : ∀ name ∈ Fields.names [], ∃ entry ∈ ([] : List (GuestValue × GuestValue)),
          entry.1.fieldName = .ok name := fun _ hname => absurd hname List.not_mem_nil
      rcases namedFields_error hconvert hnone hfields with hunnamed | hvalue
      · exact .inl ⟨rfl, hunnamed⟩
      · exact .inr hvalue
    · rw [Conversion.on_bind_ok hfields] at h
      cases h

/-! ## Why a conversion fails

A failure is traced back to its place: there is a path from the root to a value that cannot be
converted, with the reason that is given. -/

/-- What there is in a value for which a conversion can fail, and what it says then. -/
inductive Refusal (c : Converter) (s : Nat) (w : World) (v : GuestValue) : ConvertError → Prop where
  /-- A codec refuses a table or foreign userdata. -/
  | codec {path : List GuestValue} {a : GuestValue} {e : ConvertError}
      (place : Inside c s w a path v) (h : (offer s a c.codecs).on w = (.error e, w)) :
      Refusal c s w v e
  /-- A table is inside itself. -/
  | circular {path loop : List GuestValue} {id : Nat} (place : Inside c s w (.table id) path v)
      (h : Inside c s w (.table id) loop (.table id)) (moves : loop ≠ []) :
      Refusal c s w v .circular
  /-- A table is inside as many others as there may be in all. -/
  | tooDeep {path : List GuestValue} {id : Nat} (place : Inside c s w (.table id) path v)
      (h : path.length = c.maxDepth) : Refusal c s w v (.tooDeep c.maxDepth)
  /-- What the metatable of an empty table says cannot be read. -/
  | unreadable {path : List GuestValue} {id : Nat} {f : GuestFault}
      (place : Inside c s w (.table id) path v) (none : ((w.state s).table id).entries = [])
      (h : (w.state s).isMarkedArray ((w.state s).table id) = .error f) :
      Refusal c s w v (.guest f.message)
  /-- The keys of an object cannot be field names together. -/
  | keys {path : List GuestValue} {id : Nat} {e : ConvertError}
      (place : Inside c s w (.table id) path v)
      (object : Shape.ofKeys (((w.state s).table id).entries.map (·.1.keyKind)) = .object)
      (h : Unnamed ((w.state s).table id).entries e) : Refusal c s w v e

/-- A value that is not a table fails to convert because a codec refuses it. -/
theorem leafToValue_error (h : (c.leafToValue s v).on w = (.error e, u)) :
    (offer s v c.codecs).on w = (.error e, w) := by
  cases v with
  | string bytes =>
    rw [leafToValue] at h
    split at h
    · cases h
    · cases h
  | object o =>
    cases o with
    | userdata id =>
      rw [leafToValue, Conversion.on_get_bind] at h
      cases hcarried : (w.state s).carried? (.userdata id) with
      | some held =>
        rw [hcarried] at h
        cases h
      | none =>
        rw [hcarried] at h
        dsimp only at h
        have hoffer := on_offer_of_dealt (s := s) (v := .object (.userdata id)) (.refl w) c.codecs
        rcases hr : ((offer s (.object (.userdata id)) c.codecs).on w).1 with f | _ | claim
        · rw [hr] at hoffer
          rw [Conversion.on_bind_error hoffer] at h
          cases h
          exact hoffer
        · rw [hr] at hoffer
          rw [Conversion.on_bind_ok hoffer] at h
          cases h
        · rw [hr] at hoffer
          rw [Conversion.on_bind_ok hoffer] at h
          cases h
    | _ => cases h
  | _ => cases h

/-- What a codec refuses later on it has refused from the beginning. -/
theorem offer_of_dealt {r : Except ConvertError (Option (String × Payload))} (hw : w.Dealt w')
    (h : (offer s v c.codecs).on w' = (r, w')) : (offer s v c.codecs).on w = (r, w) := by
  have hbefore := on_offer_of_dealt (s := s) (v := v) (.refl w) c.codecs
  rw [on_offer_of_dealt hw] at h
  rw [hbefore, (Prod.mk.inj h).1]

/-- A conversion fails for what there is where it has got to, or with an entry of the table that it
is at.  It has got to the end of a path from the root, and the tables of `ids` have the present
value inside them. -/
theorem refusal_or_entry {root : GuestValue} {n : Nat} {ids : List Nat} {path : List GuestValue}
    {w₁ u : World} (hw : w.Dealt w₁) (hplace : Inside c s w v path root)
    (hlen : path.length + n = c.maxDepth)
    (hids : ∀ id ∈ ids, ∃ loop, loop ≠ [] ∧ Inside c s w v loop (.table id))
    (hrun : (c.toValueAt s n ids v).on w₁ = (.error e, u)) :
    Refusal c s w root e ∨ ∃ id left key a w₂ w₃, v = .table id ∧ n = left + 1
      ∧ Inside c s w a [key] (.table id) ∧ w₁.Dealt w₂
      ∧ (c.toValueAt s left (id :: ids) a).on w₂ = (.error e, w₃) := by
  by_cases hv : ∀ id, v ≠ .table id
  · rw [on_toValueAt_leaf hv] at hrun
    exact .inl (.codec hplace (offer_of_dealt hw (leafToValue_error hrun)))
  · obtain ⟨id, hid⟩ := not_forall_not.1 hv
    subst hid
    have hout := tableOutcome c s w₁ ids id n
    rw [hrun] at hout
    cases hout with
    | refused h => exact .inl (.codec hplace (offer_of_dealt hw h))
    | claimed _ run => cases run
    | circular _ again =>
      obtain ⟨loop, hne, hloop⟩ := hids id again
      exact .inl (.circular hplace hloop hne)
    | tooDeep => exact .inl (.tooDeep hplace hlen)
    | unreadable _ _ hnone hm =>
      rw [hw.state] at hnone hm
      exact .inl (.unreadable hplace hnone hm)
    | @entries left _ hoffer _ _ run =>
      rw [hw.state] at run
      rcases entriesToValue_error (c.keeps_toValueAt s World.handsOut_dealt trivial left _) run
        with ⟨hobject, hunnamed⟩ | ⟨⟨key, a⟩, hentry, w₂, w₃, hbefore, hrun⟩
      · exact .inl (.keys hplace hobject hunnamed)
      · exact .inr ⟨id, left, key, a, w₂, w₃, rfl, rfl,
          .entry (offer_of_dealt hw hoffer) hentry .here, hbefore, hrun⟩

/-- **A conversion fails only for what there is in the value.**  The walk is at the end of a path
from the root, whose length and what is left of the depth limit make up the limit, and the tables of
`ids` have the present value inside them. -/
theorem toValueAt_error {root : GuestValue} (n : Nat) : ∀ {ids : List Nat} {v : GuestValue}
    {path : List GuestValue} {w₁ u : World}, w.Dealt w₁ → Inside c s w v path root →
      path.length + n = c.maxDepth →
      (∀ id ∈ ids, ∃ loop, loop ≠ [] ∧ Inside c s w v loop (.table id)) →
      (c.toValueAt s n ids v).on w₁ = (.error e, u) → Refusal c s w root e := by
  induction n with
  | zero =>
    intro ids v path w₁ u hw hplace hlen hids hrun
    rcases refusal_or_entry hw hplace hlen hids hrun with h | ⟨_, left, _, _, _, _, -, hleft, -⟩
    · exact h
    · exact absurd hleft.symm (Nat.succ_ne_zero left)
  | succ n ih =>
    intro ids v path w₁ u hw hplace hlen hids hrun
    rcases refusal_or_entry hw hplace hlen hids hrun
      with h | ⟨id, left, key, a, w₂, w₃, rfl, hleft, hstep, hbefore, hrun⟩
    · exact h
    · obtain rfl := Nat.succ.inj hleft
      refine ih (hw.trans hbefore) (hplace.append hstep) ?_ (fun other hother => ?_) hrun
      · rw [List.length_append, List.length_singleton, Nat.add_assoc, Nat.add_comm 1]
        exact hlen
      · rcases List.mem_cons.1 hother with rfl | hother
        · exact ⟨[key], List.cons_ne_nil _ _, hstep⟩
        · obtain ⟨loop, -, hloop⟩ := hids other hother
          exact ⟨loop ++ [key], List.append_ne_nil_of_right_ne_nil _ (List.cons_ne_nil _ _),
            hloop.append hstep⟩

/-! ## Names -/

/-- What the entries of a table have become as fields: each its own, under the name of its key. -/
structure FieldsOf (c : Converter) (s : Nat) (w u : World)
    (entries : List (GuestValue × GuestValue)) (fields : Fields) : Prop where
  length : fields.length = entries.length
  /-- No two keys have one name. -/
  distinct : (entries.map (·.1.fieldName)).Nodup
  entry : ∀ key a, (key, a) ∈ entries → ∃ name y, key.fieldName = .ok name
    ∧ Fields.get? fields name = some y ∧ Converted c s w u a y
  /-- The name of a string has the bytes of the string exactly if they are text. -/
  string : ∀ bytes a, (.string bytes, a) ∈ entries → ∃ name y, Fields.get? fields name = some y
    ∧ Converted c s w u a y ∧ (name.toUTF8 = bytes ↔ (String.fromUTF8? bytes).isSome = true)

/-- Fields that are built up from pairs of different names are as many as these. -/
theorem length_ofList {pairs : List (String × Value)} (h : (pairs.map (·.1)).Nodup) :
    (Fields.ofList pairs).length = pairs.length := by
  have hnodup : (Fields.ofList pairs).Nodup :=
    (nodup_names (Fields.sorted_ofList pairs)).of_map _
  refine ((List.perm_ext_iff_of_nodup hnodup (h.of_map _)).2 fun field => ?_).length_eq
  rw [Fields.ofList, Fields.mem_foldl_insert _ h fun _ _ => List.not_mem_nil,
    iff_false_intro List.not_mem_nil, or_false]

/-- A table that has become an object has a field for each of its entries. -/
theorem fieldsOf_toValue {fields : Fields}
    (h : (c.toValue s (.table id)).on w = (.ok (.object fields), u)) :
    FieldsOf c s w u ((w.state s).table id).entries fields := by
  have hrun : (c.toValueAt s c.maxDepth [] (.table id)).on w = (.ok (.object fields), u) := h
  have hout := tableOutcome c s w [] id c.maxDepth
  rw [hrun] at hout
  generalize hn : c.maxDepth = n at hout
  cases hout with
  | claimed _ run => cases run
  | @empty _ marked _ _ _ hnone _ hx =>
    rw [hnone]
    cases marked with
    | true => cases hx
    | false =>
      cases hx
      exact ⟨rfl, .nil, fun _ _ h => absurd h List.not_mem_nil,
        fun _ _ h => absurd h List.not_mem_nil⟩
  | @entries left _ _ _ _ run =>
    have hconvert := c.keeps_toValueAt s World.handsOut_dealt trivial left [id]
    obtain ⟨hnames, ts, hts, hentries, hx⟩ := on_entriesToValue.1 run
    cases hshape : Shape.ofKeys (((w.state s).table id).entries.map (·.1.keyKind)) with
    | array length =>
      rw [hshape] at hx
      cases hx
    | object =>
      have hnames := hnames hshape
      rw [hshape] at hx
      cases hx
      have hfield : ∀ key a, (key, a) ∈ ((w.state s).table id).entries → ∃ name y,
          key.fieldName = .ok name
            ∧ Fields.get? (Fields.ofList (ts.map fun t => (nameOf t.entry.1, t.value))) name = some y
            ∧ Converted c s w u a y := by
        intro key a hentry
        obtain ⟨name, hname⟩ := hnames.named _ hentry
        obtain ⟨y, hy, w₁, w₂, hbefore, hconvert, hafter⟩ := under?_of_entries hconvert run hentry
        rw [Value.under?_object hname] at hy
        refine ⟨name, y, hname, hy, w₁, w₂, hbefore, ?_, hafter⟩
        exact toValueAt_mono left (by omega) (List.nil_subset _) hconvert
      refine ⟨?_, hnames.distinct, hfield, fun bytes a hentry => ?_⟩
      · rw [length_ofList (nodup_names_turns (hentries ▸ hnames)), List.length_map, ← hentries,
          List.length_map]
      · obtain ⟨name, y, hname, hy, hconverted⟩ := hfield _ _ hentry
        cases hname
        exact ⟨_, y, hy, hconverted, Text.toUTF8_decodeLossy⟩

/-- The keys of a table that converts, and is no array, have names of their own. -/
theorem hasNames_of_toValue (h : (c.toValue s (.table id)).on w = (.ok x, u))
    (hoffer : (offer s (.table id) c.codecs).on w = (.ok none, w))
    (hobject : Shape.ofKeys (((w.state s).table id).entries.map (·.1.keyKind)) = .object) :
    HasNames ((w.state s).table id).entries := by
  have hrun : (c.toValueAt s c.maxDepth [] (.table id)).on w = (.ok x, u) := h
  have hout := tableOutcome c s w [] id c.maxDepth
  rw [hrun] at hout
  generalize c.maxDepth = n at hout
  cases hout with
  | claimed hclaimed =>
    rw [hoffer] at hclaimed
    cases hclaimed
  | empty _ _ hnone =>
    rw [hnone]
    exact ⟨fun _ h => absurd h List.not_mem_nil, .nil⟩
  | entries _ _ _ run => exact (on_entriesToValue.1 run).1 hobject

theorem FieldsOf.mono {fields : Fields} {w₀ u' : World} (h : FieldsOf c s w u entries fields)
    (hw : w₀.Dealt w) (hu : u.Dealt u') : FieldsOf c s w₀ u' entries fields := by
  have hmono : ∀ {a y}, Converted c s w u a y → Converted c s w₀ u' a y :=
    fun ⟨w₁, w₂, hbefore, hrun, hafter⟩ => ⟨w₁, w₂, hw.trans hbefore, hrun, hafter.trans hu⟩
  refine ⟨h.length, h.distinct, fun key a hentry => ?_, fun bytes a hentry => ?_⟩
  · obtain ⟨name, y, hname, hy, hconverted⟩ := h.entry key a hentry
    exact ⟨name, y, hname, hy, hmono hconverted⟩
  · obtain ⟨name, y, hy, hconverted, hbytes⟩ := h.string bytes a hentry
    exact ⟨name, y, hy, hmono hconverted, hbytes⟩

/-- **What becomes of keys.**  Take a table anywhere in a value, in tables that no codec claims.
When the value converts, there is something in the place of the table.  If that is an object, it has
as many fields as the table has entries, each with what the value of an entry is converted to and
under the name of its key, and no two keys have one name.  The name of a string has the bytes of the
string exactly if they are text; otherwise it has replacement characters instead.

If the table is not claimed either, is no array, and its keys cannot be field names together, the
value does not convert.  And whenever a value does not convert, something in it says why: unless
there is a codec that refuses, a table in itself or too far inside, or an unreadable marker, it is
that the keys of a table have no names, or two of them the same name. -/
theorem names_of_toValue (c : Converter) (s : Nat) (w : World) (v : GuestValue) :
    (∀ path id, Inside c s w (.table id) path v →
      (∀ x u, (c.toValue s v).on w = (.ok x, u) → ∃ y, x.reach? path = some y
        ∧ ∀ fields, y = .object fields →
          FieldsOf c s w u ((w.state s).table id).entries fields)
      ∧ ((offer s (.table id) c.codecs).on w = (.ok none, w) →
        Shape.ofKeys (((w.state s).table id).entries.map (·.1.keyKind)) = .object →
        (∃ e, Unnamed ((w.state s).table id).entries e) →
        ∃ e u, (c.toValue s v).on w = (.error e, u)))
      ∧ ∀ e u, (c.toValue s v).on w = (.error e, u) → Refusal c s w v e := by
  have hplace : ∀ {path id x u}, Inside c s w (.table id) path v →
      (c.toValue s v).on w = (.ok x, u) →
      ∃ y, x.reach? path = some y ∧ Converted c s w u (.table id) y :=
    fun hinside hrun => toValueAt_inside hinside (.refl w) (Nat.le_refl _) hrun
  refine ⟨fun path id hinside => ⟨fun x u hrun => ?_, fun hoffer hobject hunnamed => ?_⟩,
    fun e u hrun => ?_⟩
  · obtain ⟨y, hy, w₁, w₂, hbefore, hconvert, hafter⟩ := hplace hinside hrun
    refine ⟨y, hy, fun fields hfields => ?_⟩
    rw [hfields] at hconvert
    rw [← hbefore.state s]
    exact (fieldsOf_toValue hconvert).mono hbefore hafter
  · rcases hrun : (c.toValue s v).on w with ⟨e | x, u⟩
    · exact ⟨e, u, rfl⟩
    · obtain ⟨y, -, w₁, w₂, hbefore, hconvert, -⟩ := hplace hinside hrun
      obtain ⟨e, he⟩ := hunnamed
      rw [← hbefore.state s] at hobject he
      have hoffer₁ := on_offer_of_dealt (s := s) (v := .table id) hbefore c.codecs
      rw [hoffer] at hoffer₁
      exact absurd he (hasNames_iff.1 (hasNames_of_toValue hconvert hoffer₁ hobject) e)
  · exact toValueAt_error c.maxDepth (.refl w) .here (Nat.zero_add _)
      (fun _ h => absurd h List.not_mem_nil) hrun

/-- A table whose only key is a byte that is not text. -/
def unreadableKey : GuestTable where
  entries := [(.string ⟨#[0xff]⟩, .integer 1)]

/-- The table converts, and its key has become another one. -/
theorem names_of_toValue_unreadable : ∃ (x : Value) (u : World) (fields : Fields),
    (({} : Converter).toValue 0 (.table 0)).on { states := #[{ tables := #[unreadableKey] }] }
      = (.ok x, u) ∧ x = .object fields ∧ fields.length = 1
      ∧ ∃ name ∈ fields.names, name.toUTF8 ≠ ⟨#[0xff]⟩ := by
  have hrun : (({} : Converter).toValue 0 (.table 0)).on
      { states := #[{ tables := #[unreadableKey] }] }
      = (.ok (.object [(Text.decodeLossy ⟨#[0xff]⟩, .number (Float.ofInt (Int64.toInt 1)))]),
        { states := #[{ tables := #[unreadableKey] }] }) := by
    rw [toValue, toValueAt_table_succ rfl]
    rfl
  obtain ⟨hplace, -⟩ := names_of_toValue {} 0 { states := #[{ tables := #[unreadableKey] }] }
    (.table 0)
  obtain ⟨y, hy, hfields⟩ := (hplace [] 0 .here).1 _ _ hrun
  obtain rfl := Option.some.inj hy
  obtain ⟨name, z, hget, -, hbytes⟩ :=
    (hfields _ rfl).string ⟨#[0xff]⟩ (.integer 1) List.mem_cons_self
  refine ⟨_, _, _, hrun, rfl, rfl, name, ?_, fun heq => ?_⟩
  · exact List.mem_map_of_mem (f := (·.1))
      ((Fields.get?_eq_some (List.pairwise_singleton _ _)).1 hget)
  · exact absurd (hbytes.1 heq) (by decide +kernel)

end Converter
end ScriptPool
