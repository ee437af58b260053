import ScriptPool.Interpreter.Baseline
import ScriptPool.Proofs.Guest.Tables

/-!
# Restoring tables

Restoring a table takes away the entries that the picture has no value for and puts back those whose
value does not agree with the one there.  What it leaves is the picture, but for values that agree
with it and differ all the same: integers and floats that stand for the same number, and the two
zeros.

## What is here

* `GuestValue.restored` — what is under a key afterwards.
* `TableImage.perm_restoreTable` — **the entries of a table that was restored.**
* `TableImage.restoreTable_exact_iff` — when they are those of the picture.
* `Baseline.table_restore` — the tables of a state that was restored.
-/

set_option autoImplicit false

namespace ScriptPool

/-! ## Values that agree

Whether to write an entry is decided by comparing values as the host compares them, and that is not
equality: an integer agrees with the float that it rounds to. -/

namespace GuestValue

variable {a b : GuestValue}

/-- Is it a number, of either subtype? -/
def isNumber : GuestValue → Bool
  | .integer _ => true
  | .float _ => true
  | _ => false

/-- Only numbers can agree without being the same. -/
theorem eq_or_isNumber_of_agrees (h : a.agrees b = true) :
    a = b ∨ a.isNumber = true ∧ b.isNumber = true := by
  cases a with
  | integer n => cases b <;> first | exact .inr ⟨rfl, rfl⟩ | cases h
  | float x => cases b <;> first | exact .inr ⟨rfl, rfl⟩ | cases h
  | nil => cases b <;> first | exact .inl rfl | cases h
  | fault f => cases h
  | _ => cases b <;> first | exact .inl (congrArg _ (eq_of_beq h)) | cases h

/-- Nothing agrees with what is not `nil`. -/
theorem isNil_of_agrees (hb : b.isNil = false) (h : a.agrees b = true) : a.isNil = false := by
  cases a with
  | nil => cases b <;> first | cases hb; done | cases h
  | _ => rfl

/-- What is under a key after it was restored: what was there, if that agrees with the picture. -/
def restored (value current : GuestValue) : GuestValue :=
  if current.agrees value then current else value

theorem restored_eq_or (value current : GuestValue) :
    restored value current = value
      ∨ restored value current = current ∧ current.agrees value = true
        ∧ current.isNumber = true ∧ value.isNumber = true := by
  rw [restored]
  split
  · rename_i h
    rcases eq_or_isNumber_of_agrees h with heq | hnumbers
    · exact .inl heq
    · exact .inr ⟨rfl, h, hnumbers⟩
  · exact .inl rfl

end GuestValue

/-! ## One table

Stale entries are taken away first, and what is left has only keys of the picture.  After that,
putting an entry back concerns its own key and no other. -/

namespace TableImage

variable {t : GuestTable} {key value : GuestValue}

theorem perm_putBack (hkey : key.toKey? = some key) (hvalue : value.isNil = false) :
    (putBack t (key, value)).entries.Perm
      ((key, value.restored (t.find key)) :: t.entriesWithout key) := by
  rw [putBack, GuestValue.restored]
  split
  · rename_i h
    exact GuestTable.perm_of_find hkey (GuestValue.isNil_of_agrees hvalue h)
  · rw [GuestTable.set_of_key hkey]
    exact GuestTable.perm_store hvalue

theorem find_putBack_other {other : GuestValue} (hkey : key.toKey? = some key)
    (hne : key.rawEqual other = false) : (putBack t (key, value)).find other = t.find other := by
  rw [putBack]
  split
  · rfl
  · rw [GuestTable.set_of_key hkey, GuestTable.find_store_other hne]

theorem putBack_metatable (entry : GuestValue × GuestValue) :
    (putBack t entry).metatable = t.metatable := by
  rw [putBack]
  split
  · rfl
  · exact GuestTable.set_metatable

/-- Has an entry a key that is none of those of others? -/
def isApart (entries : List (GuestValue × GuestValue)) (entry : GuestValue × GuestValue) : Bool :=
  entries.all fun other => !entry.1.rawEqual other.1

/-- **Putting entries back** one after the other changes those entries and leaves the others alone.
-/
theorem perm_foldl_putBack {entries : List (GuestValue × GuestValue)} :
    ∀ {t : GuestTable}, GuestTable.IsKeyed entries →
      (entries.foldl putBack t).entries.Perm
        (t.entries.filter (isApart entries)
          ++ entries.map fun entry => (entry.1, entry.2.restored (t.find entry.1))) := by
  induction entries with
  | nil =>
    intro t _
    have hall : t.entries.filter (isApart []) = t.entries := List.filter_eq_self.2 fun _ _ => rfl
    rw [hall, List.map_nil, List.append_nil]
    exact List.Perm.refl _
  | cons entry rest ih =>
    intro t h
    obtain ⟨key, value⟩ := entry
    have hkey : key.toKey? = some key := h.keys _ List.mem_cons_self
    have hvalue : value.isNil = false := h.values _ List.mem_cons_self
    obtain ⟨hne, -⟩ := List.pairwise_cons.1 h.distinct
    have hrest := ih (t := putBack t (key, value)) (h.sublist (List.sublist_cons_self _ _))
    have hmap : rest.map (fun e => (e.1, e.2.restored ((putBack t (key, value)).find e.1)))
        = rest.map fun e => (e.1, e.2.restored (t.find e.1)) :=
      List.map_congr_left fun e he => by rw [find_putBack_other hkey (hne e he)]
    have hfirst : isApart rest (key, value.restored (t.find key)) = true :=
      List.all_eq_true.2 fun e he => by rw [hne e he, Bool.not_false]
    have hothers : (t.entriesWithout key).filter (isApart rest)
        = t.entries.filter (isApart ((key, value) :: rest)) := by
      rw [GuestTable.entriesWithout, List.filter_filter]
      exact List.filter_congr fun e _ => by rw [isApart, isApart, List.all_cons, Bool.and_comm]
    have hfilter := (perm_putBack (t := t) hkey hvalue).filter (isApart rest)
    rw [List.filter_cons_of_pos hfirst, hothers] at hfilter
    rw [hmap] at hrest
    exact hrest.trans ((hfilter.append_right _).trans List.perm_middle.symm)

theorem foldl_putBack_metatable (entries : List (GuestValue × GuestValue)) :
    ∀ t : GuestTable, (entries.foldl putBack t).metatable = t.metatable := by
  induction entries with
  | nil => exact fun _ => rfl
  | cons entry rest ih => exact fun t => (ih _).trans (putBack_metatable entry)

variable (image : TableImage)

/-- What a picture has a value for is not stale. -/
theorem find_withoutStale (hkey : key.toKey? = some key)
    (h : key.rawEqual key = true → (image.contents.find key).isNil = false) :
    (image.withoutStale t).find key = t.find key := by
  cases hhas : t.has key with
  | true =>
    obtain ⟨hmem, hself⟩ := GuestTable.mem_of_has hkey hhas
    refine GuestTable.find_of_mem hkey hself (List.mem_filter.2 ⟨hmem, ?_⟩)
    rw [h hself, Bool.not_false]
  | false =>
    have hnot : (image.withoutStale t).has key = false := GuestTable.has_eq_false.2 fun e he =>
      GuestTable.has_eq_false.1 hhas e (List.mem_filter.1 he).1
    rw [GuestTable.find_eq_nil hhas, GuestTable.find_eq_nil hnot]

@[simp] theorem restoreTable_metatable (t : GuestTable) :
    (image.restoreTable t).metatable = image.contents.metatable := foldl_putBack_metatable _ _

/-- **A table that was restored has the keys of the picture.**  Under each is the value of the
picture or one that agrees with it. -/
theorem perm_restoreTable (t : GuestTable) : (image.restoreTable t).entries.Perm
    (image.contents.entries.map fun entry => (entry.1, entry.2.restored (t.find entry.1))) := by
  have hnone : (image.withoutStale t).entries.filter (isApart image.contents.entries) = [] := by
    refine List.filter_eq_nil_iff.2 fun e he hall => ?_
    obtain ⟨hmem, hkept⟩ := List.mem_filter.1 he
    have hhas := GuestTable.has_of_find (Bool.not_eq_true' _ ▸ hkept)
    obtain ⟨hentry, hself⟩ := GuestTable.mem_of_has (t.keyed.keys e hmem) hhas
    have hne := List.all_eq_true.1 hall _ hentry
    rw [hself] at hne
    cases hne
  have hmap : image.contents.entries.map (fun entry =>
      (entry.1, entry.2.restored ((image.withoutStale t).find entry.1)))
      = image.contents.entries.map fun entry => (entry.1, entry.2.restored (t.find entry.1)) := by
    refine List.map_congr_left fun entry he => ?_
    have hkey := image.contents.keyed.keys entry he
    rw [image.find_withoutStale hkey fun hself => ?_]
    rw [GuestTable.find_of_mem hkey hself he]
    exact image.contents.keyed.values entry he
  refine (perm_foldl_putBack image.contents.keyed).trans ?_
  show ((image.withoutStale t).entries.filter (isApart image.contents.entries)
    ++ image.contents.entries.map fun entry =>
      (entry.1, entry.2.restored ((image.withoutStale t).find entry.1))).Perm _
  rw [hnone, List.nil_append, hmap]

/-- **It is the picture exactly if all that agreed with it was the same.** -/
theorem restoreTable_exact_iff (t : GuestTable) :
    (image.restoreTable t).entries.Perm image.contents.entries
      ↔ ∀ entry ∈ image.contents.entries, (t.find entry.1).agrees entry.2 = true →
        t.find entry.1 = entry.2 := by
  have hperm := image.perm_restoreTable t
  constructor
  · intro h entry he hagrees
    have hkey := image.contents.keyed.keys entry he
    have hvalue := image.contents.keyed.values entry he
    have hmem : (entry.1, t.find entry.1) ∈ image.contents.entries := by
      refine (hperm.symm.trans h).mem_iff.1 (List.mem_map.2 ⟨entry, he, ?_⟩)
      rw [GuestValue.restored, if_pos hagrees]
    have hself := (GuestTable.mem_of_has hkey (GuestTable.has_of_find
      (GuestValue.isNil_of_agrees hvalue hagrees))).2
    rw [← GuestTable.find_of_mem hkey hself hmem, GuestTable.find_of_mem hkey hself he]
  · intro h
    have hmap : image.contents.entries.map (fun entry =>
        (entry.1, entry.2.restored (t.find entry.1))) = image.contents.entries := by
      refine (List.map_congr_left fun entry he => ?_).trans (List.map_id _)
      rw [GuestValue.restored]
      split
      · rename_i hagrees
        rw [h entry he hagrees]
        rfl
      · rfl
    rwa [hmap] at hperm

end TableImage

/-! ## All pictured tables -/

namespace GuestState

variable {g : GuestState} {id other : Nat} {f : GuestTable → GuestTable}

theorem table_modifyTable (h : id < g.tables.size) :
    (g.modifyTable id f).table id = f (g.table id) := by
  show (g.tables.modify id f).getD id {} = f (g.tables.getD id {})
  rw [Array.getD_eq_getD_getElem?, Array.getD_eq_getD_getElem?, Array.getElem?_modify, if_pos rfl,
    Array.getElem?_eq_getElem h]
  rfl

theorem table_modifyTable_of_ne (h : id ≠ other) :
    (g.modifyTable id f).table other = g.table other := by
  show (g.tables.modify id f).getD other {} = g.tables.getD other {}
  rw [Array.getD_eq_getD_getElem?, Array.getD_eq_getD_getElem?, Array.getElem?_modify, if_neg h]

/-- What is not in the heap is empty. -/
theorem table_of_le (h : g.tables.size ≤ id) : g.table id = {} := by
  rw [table, Array.getD_eq_getD_getElem?, Array.getElem?_eq_none h]
  rfl

@[simp] theorem size_modifyTable : (g.modifyTable id f).tables.size = g.tables.size :=
  Array.size_modify

end GuestState

namespace Baseline

variable {b : Baseline} {g : GuestState}

theorem size_restore (b : Baseline) : ∀ g : GuestState,
    (b.restore g).tables.size = g.tables.size := by
  induction b with
  | nil => exact fun _ => rfl
  | cons image rest ih => exact fun g => (ih _).trans GuestState.size_modifyTable

/-- A table that is in no picture stays as it is. -/
theorem table_restore_of_notMem {id : Nat} (b : Baseline) : ∀ {g : GuestState},
    id ∉ b.map (·.table) → (b.restore g).table id = g.table id := by
  induction b with
  | nil => exact fun _ => rfl
  | cons image rest ih =>
    intro g h
    rw [List.map_cons, List.mem_cons, not_or] at h
    exact (ih h.2).trans (GuestState.table_modifyTable_of_ne (Ne.symm h.1))

/-- **Every pictured table is restored from its picture.** -/
theorem table_restore (b : Baseline) : ∀ {g : GuestState} {image : TableImage},
    (b.map (·.table)).Nodup → image ∈ b → image.table < g.tables.size →
      (b.restore g).table image.table = image.restoreTable (g.table image.table) := by
  induction b with
  | nil => exact fun _ h => absurd h List.not_mem_nil
  | cons first rest ih =>
    intro g image hnodup hmem hlt
    rw [List.map_cons, List.nodup_cons] at hnodup
    show (restore rest (first.restore g)).table image.table = _
    rcases List.mem_cons.1 hmem with rfl | hmem
    · rw [table_restore_of_notMem rest hnodup.1]
      exact GuestState.table_modifyTable hlt
    · have hne : first.table ≠ image.table := fun heq =>
        hnodup.1 (heq ▸ List.mem_map_of_mem hmem)
      have hsize : image.table < (first.restore g).tables.size := by
        rwa [TableImage.restore, GuestState.size_modifyTable]
      rw [ih hnodup.2 hmem hsize, TableImage.restore, GuestState.table_modifyTable_of_ne hne]

end Baseline
end ScriptPool
