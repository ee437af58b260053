import Mathlib.Data.List.Forall2

/-!
# Elements and their places

Guests have no `nil`s in their tables, and what a list with `nil`s in it becomes there depends on
where they are.  `present` goes through a list and keeps the elements that are there, each with its
place.  It is the same for the elements of canonical arrays and for the values of the guest that
they become.
-/

set_option autoImplicit false

namespace ScriptPool

/-- The elements that `absent` is false of, each with its place, counted from `i` on. -/
def present {α : Type} (absent : α → Bool) (i : Nat) : List α → List (Nat × α)
  | [] => []
  | a :: rest =>
      if absent a then present absent (i + 1) rest else (i, a) :: present absent (i + 1) rest

variable {α β : Type} {absent : α → Bool}

theorem present_map {absent' : β → Bool} (f : α → β) (items : List α)
    (h : ∀ a ∈ items, absent' (f a) = absent a) (i : Nat) :
    present absent' i (items.map f)
      = (present absent i items).map fun place => (place.1, f place.2) := by
  induction items generalizing i with
  | nil => rfl
  | cons a rest ih =>
    have ih' := ih (fun b hb => h b (List.mem_cons_of_mem a hb)) (i + 1)
    rw [List.map_cons, present, present, h a List.mem_cons_self, ih']
    split
    · rfl
    · rfl

/-- Lists that go together, and have the same elements absent, go together without them. -/
theorem present_forall₂ {R : α → β → Prop} {absent' : β → Bool}
    (hR : ∀ a b, R a b → absent' b = absent a) {items : List α} {others : List β}
    (h : List.Forall₂ R items others) (i : Nat) :
    List.Forall₂ (fun place other => other.1 = place.1 ∧ R place.2 other.2)
      (present absent i items) (present absent' i others) := by
  induction h generalizing i with
  | nil => exact List.Forall₂.nil
  | cons hab _ ih =>
    rw [present, present, hR _ _ hab]
    split
    · exact ih (i + 1)
    · exact List.Forall₂.cons ⟨rfl, hab⟩ (ih (i + 1))

/-- The elements that are left are in the list, and not absent. -/
theorem of_mem_present {items : List α} {i : Nat} {place : Nat × α}
    (h : place ∈ present absent i items) : place.2 ∈ items ∧ absent place.2 = false := by
  induction items generalizing i with
  | nil => exact absurd h List.not_mem_nil
  | cons a rest ih =>
    rw [present] at h
    split at h
    · exact ⟨List.mem_cons_of_mem a (ih h).1, (ih h).2⟩
    · rename_i ha
      rcases List.mem_cons.1 h with rfl | h
      · exact ⟨List.mem_cons_self, Bool.eq_false_iff.2 ha⟩
      · exact ⟨List.mem_cons_of_mem a (ih h).1, (ih h).2⟩

/-- The places of the elements that are left are their own. -/
theorem getElem?_of_mem_present {items : List α} {i : Nat} {place : Nat × α}
    (h : place ∈ present absent i items) : i ≤ place.1 ∧ items[place.1 - i]? = some place.2 := by
  induction items generalizing i with
  | nil => exact absurd h List.not_mem_nil
  | cons a rest ih =>
    have hrest : place ∈ present absent (i + 1) rest →
        i ≤ place.1 ∧ (a :: rest)[place.1 - i]? = some place.2 := by
      intro h
      obtain ⟨hle, hat⟩ := ih h
      have hsub : place.1 - i = place.1 - (i + 1) + 1 := by omega
      exact ⟨by omega, by rw [hsub, List.getElem?_cons_succ, hat]⟩
    rw [present] at h
    split at h
    · exact hrest h
    · rcases List.mem_cons.1 h with rfl | h
      · exact ⟨Nat.le_refl i, by rw [Nat.sub_self, List.getElem?_cons_zero]⟩
      · exact hrest h

/-- The elements that are not absent are left. -/
theorem mem_present {items : List α} {a : α} (h : a ∈ items) (ha : absent a = false) :
    ∀ i, a ∈ (present absent i items).map (·.2) := by
  induction items with
  | nil => exact absurd h List.not_mem_nil
  | cons b rest ih =>
    intro i
    rw [present]
    rcases List.mem_cons.1 h with rfl | h
    · rw [if_neg (Bool.eq_false_iff.1 ha)]
      exact List.mem_cons_self
    · split
      · exact ih h (i + 1)
      · exact List.mem_cons_of_mem _ (ih h (i + 1))

theorem length_present_le (items : List α) (i : Nat) :
    (present absent i items).length ≤ items.length := by
  induction items generalizing i with
  | nil => exact Nat.le_refl 0
  | cons a rest ih =>
    rw [present]
    split
    · exact Nat.le_succ_of_le (ih (i + 1))
    · exact Nat.succ_le_succ (ih (i + 1))

/-- Places increase, from the first one on. -/
theorem present_places (items : List α) (i : Nat) :
    ((present absent i items).map (·.1)).Pairwise (· < ·)
      ∧ ∀ place ∈ present absent i items, i ≤ place.1 ∧ place.1 < i + items.length := by
  induction items generalizing i with
  | nil => exact ⟨List.Pairwise.nil, fun _ h => absurd h List.not_mem_nil⟩
  | cons a rest ih =>
    obtain ⟨hsorted, hbounds⟩ := ih (i + 1)
    have hrest : ∀ place ∈ present absent (i + 1) rest,
        i < place.1 ∧ place.1 < i + (a :: rest).length := by
      intro place hp
      have hb := hbounds place hp
      rw [List.length_cons]
      omega
    rw [present]
    split
    · exact ⟨hsorted, fun place hp => ⟨Nat.le_of_lt (hrest place hp).1, (hrest place hp).2⟩⟩
    · refine ⟨List.pairwise_cons.2 ⟨fun j hj => ?_, hsorted⟩, fun place hp => ?_⟩
      · obtain ⟨place, hp, rfl⟩ := List.mem_map.1 hj
        exact (hrest place hp).1
      · rcases List.mem_cons.1 hp with rfl | hp
        · rw [List.length_cons]
          exact ⟨Nat.le_refl i, by omega⟩
        · exact ⟨Nat.le_of_lt (hrest place hp).1, (hrest place hp).2⟩

/-- If the first places are taken, the elements in them are the first ones. -/
theorem take_of_places {items : List α} {i k : Nat}
    (h : (present absent i items).map (·.1) = List.range' i k) :
    items.take k = (present absent i items).map (·.2) := by
  induction items generalizing i k with
  | nil =>
    rw [List.take_nil]
    rfl
  | cons a rest ih =>
    rw [present] at h ⊢
    split at h
    · rename_i ha
      rw [if_pos ha]
      cases k with
      | zero => rw [List.map_eq_nil_iff.1 h, List.take_zero, List.map_nil]
      | succ k =>
        have hi : i ∈ (present absent (i + 1) rest).map (·.1) := by
          rw [h, List.range'_succ]
          exact List.mem_cons_self
        obtain ⟨place, hp, hpi⟩ := List.mem_map.1 hi
        have hle := ((present_places rest (i + 1)).2 place hp).1
        omega
    · rename_i ha
      rw [if_neg ha]
      cases k with
      | zero => cases h
      | succ k =>
        rw [List.range'_succ, List.map_cons] at h
        rw [List.take_succ_cons, List.map_cons, ih (List.cons.inj h).2]

/-- Without absent elements all places are taken. -/
theorem present_of_filled {items : List α} (h : ∀ a ∈ items, absent a = false) (i : Nat) :
    (present absent i items).map (·.1) = List.range' i items.length
      ∧ (present absent i items).map (·.2) = items := by
  induction items generalizing i with
  | nil => exact ⟨rfl, rfl⟩
  | cons a rest ih =>
    obtain ⟨hplaces, hitems⟩ := ih (fun b hb => h b (List.mem_cons_of_mem a hb)) (i + 1)
    rw [present, h a List.mem_cons_self, if_neg Bool.false_ne_true, List.map_cons, List.map_cons,
      hplaces, hitems]
    exact ⟨rfl, rfl⟩

end ScriptPool
