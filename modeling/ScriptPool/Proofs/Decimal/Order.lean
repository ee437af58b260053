import ScriptPool.Proofs.Decimal.Whole

/-!
# The order of floats

The comparisons of floats are defined on what these unpack to, by one function that has no answer
where one side is not a number.  Whoever tests `a ≤ b` and goes on with `b < a` otherwise relies on
there being an answer, so nearly every lemma here has the hypotheses that both sides are numbers.

## What is here

* `lt_iff`, `le_iff`, `compare_swap` and `compare_eq_none` — the two relations, and the laws of the
  function behind them.
* `lt_of_not_le`, `le_of_not_lt` and `not_lt_of_le` — numbers are ordered one way or the other.
* `le_of_le_zero` and `isFinite_of_between` — comparing through zero, and between finite bounds.
* `isNaN_add`, `isNaN_sub` — what comes of finite floats can be too large, but it is a number.
-/

set_option autoImplicit false

namespace ScriptPool
namespace Decimal

open Float.Model Float.Model.UnpackedFloat

/-! ## The function behind the comparisons -/

theorem compare_swap (a b : UnpackedFloat) : b.compare a = (a.compare b).map Ordering.swap := by
  rcases a with (_ | _) | _ | _ | ⟨_ | _, m, e, _⟩ <;>
    rcases b with (_ | _) | _ | _ | ⟨_ | _, m', e', _⟩ <;>
    first
    | rfl
    | simp [UnpackedFloat.compare, Ordering.swap_then, ← Std.OrientedCmp.eq_swap]

/-- Only with what is not a number there is no comparing. -/
theorem compare_eq_none {a b : UnpackedFloat} :
    a.compare b = none ↔ a.isNaN = true ∨ b.isNaN = true := by
  rcases a with (_ | _) | _ | _ | ⟨_ | _, m, e, _⟩ <;>
    rcases b with (_ | _) | _ | _ | ⟨_ | _, m', e', _⟩ <;>
    simp [UnpackedFloat.compare, UnpackedFloat.isNaN]

variable {x y low high : Float}

theorem lt_iff : x < y ↔ x.toModel.unpack.compare y.toModel.unpack = some .lt := by
  show decide (x.toModel < y.toModel) = true ↔ _
  rw [decide_eq_true_iff]
  exact beq_iff_eq

theorem le_iff :
    x ≤ y ↔ ∃ o, x.toModel.unpack.compare y.toModel.unpack = some o ∧ o ≠ .gt := by
  show decide (x.toModel ≤ y.toModel) = true ↔ _
  rw [decide_eq_true_iff]
  show Option.any Ordering.isLE _ = true ↔ _
  simp only [Option.any_eq_true, Ordering.isLE_iff_ne_gt]

theorem exists_compare (hx : x.isNaN = false) (hy : y.isNaN = false) :
    ∃ o, x.toModel.unpack.compare y.toModel.unpack = some o := by
  refine Option.ne_none_iff_exists'.1 fun hnone => ?_
  obtain h | h := compare_eq_none.1 hnone
  · exact Bool.false_ne_true (hx.symm.trans h)
  · exact Bool.false_ne_true (hy.symm.trans h)

/-! ## Numbers are ordered -/

protected theorem lt_of_not_le (hx : x.isNaN = false) (hy : y.isNaN = false) (h : ¬ y ≤ x) :
    x < y := by
  obtain ⟨o, ho⟩ := exists_compare hx hy
  rw [le_iff, compare_swap, ho] at h
  rw [lt_iff, ho]
  cases o <;> simp_all

protected theorem le_of_not_lt (hx : x.isNaN = false) (hy : y.isNaN = false) (h : ¬ y < x) :
    x ≤ y := by
  obtain ⟨o, ho⟩ := exists_compare hx hy
  rw [lt_iff, compare_swap, ho] at h
  exact le_iff.2 ⟨o, ho, fun hgt => h (by rw [hgt]; rfl)⟩

protected theorem not_lt_of_le (h : x ≤ y) : ¬ y < x := by
  obtain ⟨o, ho, hne⟩ := le_iff.1 h
  rw [lt_iff, compare_swap, ho]
  cases o <;> simp_all

protected theorem le_of_lt (h : x < y) : x ≤ y := le_iff.2 ⟨.lt, lt_iff.1 h, by decide⟩

theorem le_self (hx : x.isNaN = false) : x ≤ x := by
  have h := beq_self hx
  rw [beq_eq, beq_iff_eq] at h
  exact le_iff.2 ⟨.eq, h, by decide⟩

theorem isNaN_of_le (h : x ≤ y) : x.isNaN = false ∧ y.isNaN = false := by
  obtain ⟨o, ho, -⟩ := le_iff.1 h
  have hsome : ¬ (x.isNaN = true ∨ y.isNaN = true) := fun hnan =>
    Option.some_ne_none o (ho.symm.trans (compare_eq_none.2 hnan))
  simpa using hsome

/-- What is at most zero is at most what is at least zero. -/
theorem le_of_le_zero (hx : x ≤ 0.0) (hy : 0.0 ≤ y) : x ≤ y := by
  have hzero : (0.0 : Float).toModel.unpack = .zero .positive := rfl
  rw [le_iff, hzero] at hx hy
  rw [le_iff]
  generalize x.toModel.unpack = a at *
  generalize y.toModel.unpack = b at *
  rcases a with (_ | _) | _ | _ | ⟨_ | _, m, e, _⟩ <;>
    rcases b with (_ | _) | _ | _ | ⟨_ | _, m', e', _⟩ <;>
    simp_all [UnpackedFloat.compare]

/-! ## Finite floats -/

theorem unpack_of_isFinite (h : x.isFinite = true) :
    (∃ s, x.toModel.unpack = .zero s) ∨ ∃ s m e hm, x.toModel.unpack = .finite s m e hm := by
  change x.toModel.unpack.isFinite = true at h
  cases hx : x.toModel.unpack with
  | zero s => exact .inl ⟨s, rfl⟩
  | finite s m e hm => exact .inr ⟨s, m, e, hm, rfl⟩
  | _ =>
    rw [hx] at h
    cases h

theorem isNaN_of_isFinite (h : x.isFinite = true) : x.isNaN = false := by
  show x.toModel.unpack.isNaN = false
  obtain ⟨s, hx⟩ | ⟨s, m, e, hm, hx⟩ := unpack_of_isFinite h <;> rw [hx] <;> rfl

/-- Between finite bounds everything is finite. -/
theorem isFinite_of_between (hlow : low.isFinite = true) (hhigh : high.isFinite = true)
    (hge : low ≤ x) (hle : x ≤ high) : x.isFinite = true := by
  rw [le_iff] at hge hle
  change low.toModel.unpack.isFinite = true at hlow
  change high.toModel.unpack.isFinite = true at hhigh
  show x.toModel.unpack.isFinite = true
  generalize low.toModel.unpack = a at *
  generalize high.toModel.unpack = b at *
  generalize x.toModel.unpack = c at *
  cases c with
  | zero s => rfl
  | finite s m e hm => rfl
  | notANumber => cases b <;> simp_all [UnpackedFloat.isFinite, UnpackedFloat.compare]
  | infinity s =>
    cases s with
    | negative => cases a <;> simp_all [UnpackedFloat.isFinite, UnpackedFloat.compare]
    | positive => cases b <;> simp_all [UnpackedFloat.isFinite, UnpackedFloat.compare]

/-! ## Sums of finite floats -/

/-- The exponent of ones is kept for infinities and for what is not a number. -/
theorem isNaN_unpack_packComponents (s : Sign) {e : BitVec 11} (m : BitVec 52) (he : e ≠ -1#_) :
    (UnpackedFloat.unpack Format.binary64 (packComponents Format.binary64 s e m)).isNaN
      = false := by
  rw [UnpackedFloat.unpack]
  simp only [unpackExponent_packComponents, unpackMantissa_packComponents]
  rw [if_neg he]
  split
  · split <;> rfl
  · rfl

/-- A number is stored as a number. -/
theorem isNaN_unpack_pack {a : UnpackedFloat} (h : a.isNaN = false) :
    (Float.Model.pack a).unpack.isNaN = false := by
  show (UnpackedFloat.unpack Format.binary64 (UnpackedFloat.pack Format.binary64 a)).isNaN = false
  cases a with
  | notANumber => cases h
  | infinity s => cases s <;> rfl
  | zero s => cases s <;> rfl
  | finite s m e hm =>
    rw [UnpackedFloat.pack]
    dsimp only
    split
    · cases s <;> rfl
    · rename_i hroom
      split
      · refine isNaN_unpack_packComponents s _ fun hones => hroom ?_
        have hvalue := congrArg BitVec.toNat hones
        rw [BitVec.toNat_ofNat, show (-1#11).toNat = 2047 from rfl] at hvalue
        show 2048 ≤ _
        omega
      · exact isNaN_unpack_packComponents s _ (by decide)

theorem isNaN_normalize (m e : Int) (s : Sign) :
    (UnpackedFloat.normalize Format.binary64 m e s).isNaN = false := by
  have hround : ∀ (s : Sign) (m : Nat),
      (UnpackedFloat.round Format.binary64 s m e).isNaN = false := by
    intro s m
    rw [UnpackedFloat.round]
    dsimp only
    rw [roundWithAccuracy]
    dsimp only
    split <;> rfl
  rw [UnpackedFloat.normalize]
  split
  · exact hround ..
  · rfl
  · exact hround ..

/-- **The sum of finite floats is a number.** -/
theorem isNaN_add (hx : x.isFinite = true) (hy : y.isFinite = true) : (x + y).isNaN = false := by
  refine isNaN_unpack_pack (a := .add Format.binary64 x.toModel.unpack y.toModel.unpack) ?_
  obtain ⟨s, ha⟩ | ⟨s, m, e, hm, ha⟩ := unpack_of_isFinite hx <;>
    obtain ⟨s', hb⟩ | ⟨s', m', e', hm', hb⟩ := unpack_of_isFinite hy <;>
    rw [ha, hb]
  · cases s <;> cases s' <;> rfl
  · rfl
  · rfl
  · exact isNaN_normalize ..

/-- **The difference of finite floats is a number.** -/
theorem isNaN_sub (hx : x.isFinite = true) (hy : y.isFinite = true) : (x - y).isNaN = false := by
  refine isNaN_unpack_pack (a := .sub Format.binary64 x.toModel.unpack y.toModel.unpack) ?_
  obtain ⟨s, ha⟩ | ⟨s, m, e, hm, ha⟩ := unpack_of_isFinite hx <;>
    obtain ⟨s', hb⟩ | ⟨s', m', e', hm', hb⟩ := unpack_of_isFinite hy <;>
    rw [ha, hb]
  · cases s <;> cases s' <;> rfl
  · rfl
  · rfl
  · exact isNaN_normalize ..

end Decimal
end ScriptPool
