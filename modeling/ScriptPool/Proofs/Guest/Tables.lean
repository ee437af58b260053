import ScriptPool.Guest.Heap
import ScriptPool.Proofs.Decimal.Equal

/-!
# Tables read and written

A table has at most one entry for a key, and keys that the language finds equal are the same, so
writing a key changes what is under that key and nothing else.

## What is here

* `GuestValue.eq_of_rawEqual` — equal keys are the same.
* `find_store` — **reading after writing**.
* `perm_store`, `perm_of_find` — the entries of a table, with the one for a key in front.
* `entries_add` — writing new keys one after the other.
-/

set_option autoImplicit false

namespace ScriptPool

/-- Strings of bytes compare as what they are. -/
instance lawfulBEqByteArray : LawfulBEq ByteArray where
  eq_of_beq {a b} h := by
    cases a
    cases b
    exact congrArg ByteArray.mk (eq_of_beq h)
  rfl {a} := beq_self_eq_true a.data

/-! ## Keys -/

namespace GuestValue

variable {a b : GuestValue}

/-- A float that is a key stands for no integer of the guest. -/
theorem integer?_of_key {x : Float} {n : Int} (h : (float x).toKey? = some (float x))
    (hn : Decimal.integer? x = some n) : ¬ (-(2 ^ 63) ≤ n ∧ n < 2 ^ 63) := by
  intro hrange
  rw [toKey?, hn] at h
  dsimp only at h
  rw [if_pos hrange] at h
  split at h <;> cases h

theorem eq_nil_of_isNil (h : a.isNil = true) : a = .nil := by
  cases a with
  | nil => rfl
  | _ => cases h

/-- **Keys that are equal are the same.** -/
theorem eq_of_rawEqual (ha : a.toKey? = some a) (hb : b.toKey? = some b)
    (h : a.rawEqual b = true) : a = b := by
  -- integers and floats apart, only values of one kind are compared
  cases a with
  | nil => cases ha
  | fault f => cases h
  | integer n =>
    cases b with
    | integer m => exact congrArg integer (eq_of_beq h)
    | float y => exact absurd ⟨n.le_toInt, n.toInt_lt⟩ (integer?_of_key hb (eq_of_beq h))
    | _ => cases h
  | float x =>
    cases b with
    | integer m => exact absurd ⟨m.le_toInt, m.toInt_lt⟩ (integer?_of_key ha (eq_of_beq h))
    | float y =>
      exact congrArg float (Decimal.eq_of_beq h fun h0 => integer?_of_key ha h0 (by decide))
    | _ => cases h
  | _ =>
    cases b <;> first | cases h | exact congrArg _ (eq_of_beq h)

end GuestValue

namespace GuestTable

variable {t : GuestTable} {key other value : GuestValue}

/-! ## Where a key is

Most of what is said about a table is said about its entries as a multiset, since the order in which
they are enumerated tells nothing. -/

theorem has_eq_false : t.has key = false ↔ ∀ entry ∈ t.entries, entry.1.rawEqual key = false := by
  rw [has, List.any_eq_false]
  exact forall₂_congr fun entry _ => Bool.eq_false_iff.symm

theorem find_eq_nil (h : t.has key = false) : t.find key = .nil := by
  have hnone : t.entries.find? (fun entry => entry.1.rawEqual key) = none :=
    List.find?_eq_none.2 fun entry he => Bool.eq_false_iff.1 (has_eq_false.1 h entry he)
  rw [find, hnone]

/-- A key with a value is there. -/
theorem has_of_find (h : (t.find key).isNil = false) : t.has key = true := by
  cases hhas : t.has key with
  | true => rfl
  | false =>
    rw [find_eq_nil hhas] at h
    cases h

/-- The entries of a table, with the one under a key singled out. -/
structure Split (t : GuestTable) (key : GuestValue) (before after : List (GuestValue × GuestValue)) :
    Prop where
  entries : t.entries = before ++ (key, t.find key) :: after
  others : ∀ entry ∈ before ++ after, entry.1.rawEqual key = false
  self : key.rawEqual key = true

/-- A table that has a key has it in one place. -/
theorem exists_split (hkey : key.toKey? = some key) (h : t.has key = true) :
    ∃ before after, t.Split key before after := by
  obtain ⟨entry, hfind⟩ : ∃ entry, t.entries.find? (fun entry => entry.1.rawEqual key) = some entry :=
    Option.isSome_iff_exists.1 (List.find?_isSome.2 (List.any_eq_true.1 h))
  have hvalue : t.find key = entry.2 := by rw [find, hfind]
  obtain ⟨hentry, before, after, hsplit, hbefore⟩ := List.find?_eq_some_iff_append.1 hfind
  obtain rfl : entry.1 = key :=
    GuestValue.eq_of_rawEqual (t.keyed.keys entry (List.mem_of_find?_eq_some hfind)) hkey hentry
  refine ⟨before, after, by rw [hsplit, hvalue], fun e he => ?_, hentry⟩
  rcases List.mem_append.1 he with he | he
  · exact Bool.not_eq_true' _ ▸ hbefore e he
  · refine Bool.eq_false_iff.2 fun heq => ?_
    have hmem : e ∈ t.entries := hsplit ▸ List.mem_append_right _ (List.mem_cons_of_mem _ he)
    have hsame := GuestValue.eq_of_rawEqual (t.keyed.keys e hmem) hkey heq
    have hdistinct := t.keyed.distinct
    rw [hsplit] at hdistinct
    have hfalse := (List.pairwise_cons.1 (List.pairwise_append.1 hdistinct).2.1).1 e he
    rw [hsame, hentry] at hfalse
    cases hfalse

variable {before after : List (GuestValue × GuestValue)}

theorem Split.entriesWithout (h : t.Split key before after) :
    t.entriesWithout key = before ++ after := by
  have hkeep : ∀ entry ∈ before ++ after, (!entry.1.rawEqual key) = true := fun entry he => by
    rw [h.others entry he, Bool.not_false]
  rw [GuestTable.entriesWithout, h.entries, List.filter_append,
    List.filter_cons_of_neg (by rw [h.self]; decide), ← List.filter_append,
    List.filter_eq_self.2 hkeep]

theorem entriesWithout_of_has (h : t.has key = false) : t.entriesWithout key = t.entries :=
  List.filter_eq_self.2 fun entry he => by rw [has_eq_false.1 h entry he, Bool.not_false]

/-- **The entry under a key in front of the others.** -/
theorem perm_of_find (hkey : key.toKey? = some key) (h : (t.find key).isNil = false) :
    t.entries.Perm ((key, t.find key) :: t.entriesWithout key) := by
  obtain ⟨before, after, hsplit⟩ := exists_split hkey (has_of_find h)
  rw [hsplit.entriesWithout, hsplit.entries]
  exact List.perm_middle

/-- What is found under a key is the value of its entry. -/
theorem find_of_mem (hkey : key.toKey? = some key) (hself : key.rawEqual key = true)
    (h : (key, value) ∈ t.entries) : t.find key = value := by
  obtain ⟨before, after, hsplit⟩ := exists_split hkey (List.any_eq_true.2 ⟨_, h, hself⟩)
  rw [hsplit.entries] at h
  rcases List.mem_append.1 h with h | h
  · exact absurd hself (Bool.eq_false_iff.1 (hsplit.others _ (List.mem_append_left _ h)))
  · rcases List.mem_cons.1 h with h | h
    · exact (Prod.mk.inj h).2.symm
    · exact absurd hself (Bool.eq_false_iff.1 (hsplit.others _ (List.mem_append_right _ h)))

/-- What is found has an entry. -/
theorem mem_of_has (hkey : key.toKey? = some key) (h : t.has key = true) :
    (key, t.find key) ∈ t.entries ∧ key.rawEqual key = true := by
  obtain ⟨before, after, hsplit⟩ := exists_split hkey h
  refine ⟨?_, hsplit.self⟩
  rw [hsplit.entries]
  exact List.mem_append_right _ List.mem_cons_self

/-! ## Writing

Writing takes the old entry out and puts the new one in, if it is not `nil`.  What is found under
any key afterwards follows from that. -/

variable {hkey : key.toKey? = some key}

theorem Split.replace (h : t.Split key before after) (hvalue : value.isNil = false) :
    (t.replace key value hvalue).entries = before ++ (key, value) :: after := by
  have hkeep : ∀ entries : List (GuestValue × GuestValue),
      (∀ entry ∈ entries, entry.1.rawEqual key = false) →
      entries.map (fun entry => if entry.1.rawEqual key then (entry.1, value) else entry)
        = entries := fun entries hothers =>
    (List.map_congr_left fun entry he =>
      if_neg (Bool.eq_false_iff.1 (hothers entry he))).trans (List.map_id _)
  show t.entries.map _ = _
  rw [h.entries, List.map_append, List.map_cons, if_pos h.self,
    hkeep before fun e he => h.others e (List.mem_append_left _ he),
    hkeep after fun e he => h.others e (List.mem_append_right _ he)]

theorem store_nil : (t.store key .nil hkey).entries = t.entriesWithout key := rfl

theorem store_of_has (hvalue : value.isNil = false) (h : t.has key = true) :
    t.store key value hkey = t.replace key value hvalue := by
  rw [store, dif_neg (Bool.eq_false_iff.1 hvalue), dif_pos h]

theorem store_of_not_has (hvalue : value.isNil = false) (h : t.has key = false) :
    (t.store key value hkey).entries = t.entries ++ [(key, value)] := by
  rw [store, dif_neg (Bool.eq_false_iff.1 hvalue), dif_neg (Bool.eq_false_iff.1 h)]

@[simp] theorem store_metatable : (t.store key value hkey).metatable = t.metatable := by
  rw [store]
  split
  · rfl
  · split <;> rfl

/-- **What is written is there afterwards, in front of the others.** -/
theorem perm_store (hvalue : value.isNil = false) :
    (t.store key value hkey).entries.Perm ((key, value) :: t.entriesWithout key) := by
  cases hhas : t.has key with
  | true =>
    obtain ⟨before, after, hsplit⟩ := exists_split hkey hhas
    rw [store_of_has hvalue hhas, hsplit.replace hvalue, hsplit.entriesWithout]
    exact List.perm_middle
  | false =>
    rw [store_of_not_has hvalue hhas, entriesWithout_of_has hhas]
    exact List.perm_append_singleton _ _

/-- An entry under another key makes no difference to what is found. -/
theorem find?_insert (hne : key.rawEqual other = false) (v : GuestValue) :
    (before ++ (key, v) :: after).find? (fun entry => entry.1.rawEqual other)
      = (before ++ after).find? fun entry => entry.1.rawEqual other := by
  rw [List.find?_append, List.find?_cons_of_neg (by rw [hne]; decide), List.find?_append]

/-- **Writing a key leaves the others alone.** -/
theorem find_store_other (hne : key.rawEqual other = false) :
    (t.store key value hkey).find other = t.find other := by
  suffices hfind : (t.store key value hkey).entries.find? (fun entry => entry.1.rawEqual other)
      = t.entries.find? fun entry => entry.1.rawEqual other by
    rw [find, hfind, find]
  cases hhas : t.has key with
  | true =>
    obtain ⟨before, after, hsplit⟩ := exists_split hkey hhas
    rw [hsplit.entries, find?_insert hne]
    cases hvalue : value.isNil with
    | true => rw [GuestValue.eq_nil_of_isNil hvalue, store_nil, hsplit.entriesWithout]
    | false => rw [store_of_has hvalue hhas, hsplit.replace hvalue, find?_insert hne]
  | false =>
    cases hvalue : value.isNil with
    | true => rw [GuestValue.eq_nil_of_isNil hvalue, store_nil, entriesWithout_of_has hhas]
    | false =>
      rw [store_of_not_has hvalue hhas, ← List.append_nil (t.entries ++ _), List.append_assoc,
        List.singleton_append, find?_insert hne, List.append_nil]

/-- **What was written is read.** -/
theorem find_store (hself : key.rawEqual key = true) : (t.store key value hkey).find key = value := by
  cases hvalue : value.isNil with
  | true =>
    rw [GuestValue.eq_nil_of_isNil hvalue]
    refine find_eq_nil (has_eq_false.2 fun entry he => ?_)
    exact Bool.not_eq_true' _ ▸ (List.mem_filter.1 he).2
  | false =>
    exact find_of_mem hkey hself ((perm_store hvalue).mem_iff.2 List.mem_cons_self)

/-! ## Writing by any key -/

theorem set_of_key (hkey : other.toKey? = some key) :
    t.set other value = t.store key value (GuestValue.toKey?_of_toKey? hkey) := by
  rw [set]
  split
  · rename_i found hfound
    obtain rfl : found = key := Option.some.inj (hfound.symm.trans hkey)
    rfl
  · rename_i hnone
    rw [hkey] at hnone
    cases hnone

@[simp] theorem set_metatable : (t.set key value).metatable = t.metatable := by
  rw [set]
  split
  · exact store_metatable
  · rfl

@[simp] theorem add_metatable (new : List (GuestValue × GuestValue)) :
    ∀ t : GuestTable, (t.add new).metatable = t.metatable := by
  induction new with
  | nil => exact fun _ => rfl
  | cons entry rest ih => exact fun t => (ih _).trans set_metatable

/-- New keys go to the end one after the other. -/
theorem entries_add : ∀ {new : List (GuestValue × GuestValue)} {t : GuestTable},
    IsKeyed (t.entries ++ new) → (t.add new).entries = t.entries ++ new := by
  intro new
  induction new with
  | nil => exact fun _ => (List.append_nil _).symm
  | cons entry rest ih =>
    intro t h
    have hkey := h.keys entry (List.mem_append_right _ List.mem_cons_self)
    have hvalue := h.values entry (List.mem_append_right _ List.mem_cons_self)
    have hnew : t.has entry.1 = false := has_eq_false.2 fun e he =>
      (List.pairwise_append.1 h.distinct).2.2 e he entry List.mem_cons_self
    have hset : (t.set entry.1 entry.2).entries = t.entries ++ [entry] := by
      rw [set_of_key hkey, store_of_not_has hvalue hnew]
    show ((t.set entry.1 entry.2).add rest).entries = _
    rw [ih (by rwa [hset, List.append_assoc, List.singleton_append]), hset, List.append_assoc,
      List.singleton_append]

end GuestTable
end ScriptPool
