import ScriptPool.Proofs.Decimal.Rounding

/-!
# Shortest decimals read back

The decimal that is written for a float is searched for on ever finer grids, and only one that lies
in the rounding interval of the float is taken.  The search ends after a fixed number of grids; it
never has to go that far, since a grid finer than a quarter of the last place has a point in the
interval, and the first grid is not that much coarser.  That is a comparison of a power of ten with
a power of two, for which `10^3 ≤ 2^10` and `2^43 ≤ 10^13` are good enough.

A decimal is read by dividing its digits by a power of ten, so what was written for a float is read
as that float.

## What is here

* `around_of_holds`, `around_of_searchGrids` — what the search finds is in the interval.
* `around_shortest` — **the shortest decimal lies in the rounding interval.**
* `ofScientific_of_around` — **a decimal in the rounding interval is read as the float.**
-/

set_option autoImplicit false

namespace ScriptPool
namespace Decimal

open Float.Model Float.Model.UnpackedFloat

/-! ## Grids

A grid consists of the multiples of a power of ten.  Once it is finer than the interval is wide,
some point of it is inside, and the search takes the one that is nearest to the float. -/

theorem zpow_eq_div {a : ℚ} (ha : a ≠ 0) (k : ℤ) : a ^ k = a ^ k.toNat / a ^ (-k).toNat := by
  rw [eq_div_iff (pow_ne_zero _ ha), ← zpow_natCast, ← zpow_natCast, ← zpow_add₀ ha]
  congr 1
  omega

section Grids

variable {m c : Nat} {q k : Int}

/-- The unit in which intervals are counted. -/
theorem unit_eq (q : Int) : (2 : ℚ) ^ (q - 2).toNat / 2 ^ (2 - q).toNat = 2 ^ q / 4 := by
  have h := zpow_eq_div two_ne_zero (q - 2)
  rw [neg_sub] at h
  rw [← h, zpow_sub₀ two_ne_zero]
  norm_num

/-- The numbers of an interval, as rational numbers. -/
theorem Interval.around_eq (h0 : 0 < m) (q : Int) :
    ((Interval.around m q).low : ℚ) / (Interval.around m q).denominator = (m - below m q) * 2 ^ q
    ∧ ((Interval.around m q).value : ℚ) / (Interval.around m q).denominator = m * 2 ^ q
    ∧ ((Interval.around m q).high : ℚ) / (Interval.around m q).denominator
        = (m + 1 / 2) * 2 ^ q := by
  have hscale : ∀ x : ℚ, x * 2 ^ (q - 2).toNat / 2 ^ (2 - q).toNat = x / 4 * 2 ^ q := by
    intro x
    rw [mul_div_assoc, unit_eq]
    ring
  have hle : (if narrowBelow m q then 1 else 2) ≤ 4 * m := by
    split <;> omega
  simp only [Interval.around]
  push_cast [Nat.cast_sub hle]
  rw [hscale, hscale, hscale, below]
  refine ⟨?_, ?_, ?_⟩
  · split <;> ring
  · ring
  · ring

/-- What is inside in units of `10^k` is inside. -/
theorem around_of_holds (h0 : 0 < m)
    (h : ((Interval.around m q).inUnits k).holds c = true) : Around m q (c * 10 ^ k) := by
  obtain ⟨hlow, -, hhigh⟩ := Interval.around_eq h0 q
  have hclosed : (Interval.around m q).closed = (m % 2 == 0) := rfl
  have hden : (0 : ℚ) < (Interval.around m q).denominator := by
    exact_mod_cast Nat.two_pow_pos (2 - q).toNat
  have hunit : (0 : ℚ) < 10 ^ (-k).toNat := pow_pos (by norm_num) _
  have hpoint : (c : ℚ) * 10 ^ k
      = c * ((Interval.around m q).denominator * 10 ^ k.toNat)
        / ((Interval.around m q).denominator * 10 ^ (-k).toNat) := by
    rw [zpow_eq_div (by norm_num) k]
    field_simp
  generalize Interval.around m q = i at *
  have hscale : ∀ n : Nat, (n : ℚ) / i.denominator
      = (n * 10 ^ (-k).toNat) / (i.denominator * 10 ^ (-k).toNat) := by
    intro n
    rw [mul_div_mul_right _ _ hunit.ne']
  have hpos : (0 : ℚ) < i.denominator * 10 ^ (-k).toNat := mul_pos hden hunit
  rw [hscale] at hlow hhigh
  rw [Interval.holds, Interval.inUnits] at h
  dsimp only at h
  rw [hclosed] at h
  rcases Nat.mod_two_eq_zero_or_one m with heven | hodd
  · rw [heven, beq_self_eq_true, if_pos rfl, Bool.and_eq_true, decide_eq_true_iff,
      decide_eq_true_iff] at h
    refine ⟨?_, ?_, fun hodd => absurd (heven.symm.trans hodd) Nat.zero_ne_one⟩
    · rw [← hlow, hpoint, div_le_div_iff_of_pos_right hpos]
      exact_mod_cast h.1
    · rw [← hhigh, hpoint, div_le_div_iff_of_pos_right hpos]
      exact_mod_cast h.2
  · rw [hodd, beq_eq_false_iff_ne.2 Nat.one_ne_zero, if_neg Bool.false_ne_true, Bool.and_eq_true,
      decide_eq_true_iff, decide_eq_true_iff] at h
    have hinside : (m - below m q) * 2 ^ q < (c : ℚ) * 10 ^ k
        ∧ (c : ℚ) * 10 ^ k < (m + 1 / 2) * 2 ^ q := by
      rw [← hlow, ← hhigh, hpoint, div_lt_div_iff_of_pos_right hpos,
        div_lt_div_iff_of_pos_right hpos]
      exact_mod_cast h
    exact ⟨hinside.1.le, hinside.2.le, fun _ => hinside⟩

theorem Interval.holds_of_nearest? {i : Interval} (h : i.nearest? = some c) : i.holds c = true := by
  rw [Interval.nearest?] at h
  split at h
  · rename_i hbelow habove
    split at h
    · cases h
      exact hbelow
    · split at h
      · cases h
        exact habove
      · split at h <;> cases h
        · exact hbelow
        · exact habove
  · rename_i hbelow _
    cases h
    exact hbelow
  · rename_i _ habove
    cases h
    exact habove
  · cases h

/-- A grid that is finer than the interval has a point in it. -/
theorem Interval.nearest?_ne_none {i : Interval} (hlow : i.low + i.denominator ≤ i.value)
    (hhigh : i.value < i.high) (hden : 0 < i.denominator) : i.nearest? ≠ none := by
  have hbelow : i.holds (i.value / i.denominator) = true := by
    have hdiv := Nat.div_add_mod i.value i.denominator
    have hmod := Nat.mod_lt i.value hden
    rw [Nat.mul_comm] at hdiv
    rw [Interval.holds]
    split
    · rw [Bool.and_eq_true, decide_eq_true_iff, decide_eq_true_iff]
      omega
    · rw [Bool.and_eq_true, decide_eq_true_iff, decide_eq_true_iff]
      omega
  rw [Interval.nearest?, hbelow]
  split
  · split
    · exact Option.some_ne_none _
    · split <;> exact Option.some_ne_none _
  · exact Option.some_ne_none _
  · rename_i h _
    cases h
  · rename_i h _
    cases h

/-- A grid of at most a quarter of the last place is fine enough. -/
theorem nearest?_ne_none_of_le (h0 : 0 < m) (hk : (10 : ℚ) ^ k ≤ 2 ^ (q - 2)) :
    ((Interval.around m q).inUnits k).nearest? ≠ none := by
  have hfine : 2 ^ (2 - q).toNat * 10 ^ k.toNat ≤ 2 ^ (q - 2).toNat * 10 ^ (-k).toNat := by
    rw [zpow_eq_div (by norm_num) k, zpow_eq_div two_ne_zero (q - 2), neg_sub,
      div_le_div_iff₀ (pow_pos (by norm_num) _) (pow_pos two_pos _)] at hk
    rw [Nat.mul_comm]
    exact_mod_cast hk
  have hup := Nat.two_pow_pos (q - 2).toNat
  have hunit : 0 < 10 ^ (-k).toNat := Nat.pow_pos (by norm_num)
  have hle : (if narrowBelow m q then 1 else 2) + 1 ≤ 4 * m := by
    split <;> omega
  refine Interval.nearest?_ne_none ?_ ?_ ?_
  · show (4 * m - (if narrowBelow m q then 1 else 2)) * 2 ^ (q - 2).toNat * 10 ^ (-k).toNat
      + 2 ^ (2 - q).toNat * 10 ^ k.toNat ≤ 4 * m * 2 ^ (q - 2).toNat * 10 ^ (-k).toNat
    refine Nat.le_trans (Nat.add_le_add_left hfine _) ?_
    rw [Nat.mul_assoc, Nat.mul_assoc, ← Nat.succ_mul]
    refine Nat.mul_le_mul_right _ ?_
    split <;> omega
  · show 4 * m * 2 ^ (q - 2).toNat * 10 ^ (-k).toNat
      < (4 * m + 2) * 2 ^ (q - 2).toNat * 10 ^ (-k).toNat
    refine Nat.mul_lt_mul_of_pos_right (Nat.mul_lt_mul_of_pos_right ?_ hup) hunit
    omega
  · exact Nat.mul_pos (Nat.two_pow_pos _) (Nat.pow_pos (by norm_num))

/-- The search finds a number of the interval if it gets as far as a grid that is fine enough. -/
theorem around_of_searchGrids (h0 : 0 < m) {steps : Nat} :
    ∀ {k : Int}, (10 : ℚ) ^ (k - steps) ≤ 2 ^ (q - 2) →
      Around m q ((searchGrids (.around m q) (steps + 1) k).digits
        * 10 ^ (searchGrids (.around m q) (steps + 1) k).exponent)
      ∧ k - steps ≤ (searchGrids (.around m q) (steps + 1) k).exponent := by
  induction steps with
  | zero =>
    intro k hk
    rw [Nat.cast_zero, Int.sub_zero] at hk
    obtain ⟨c, hc⟩ := Option.ne_none_iff_exists'.1 (nearest?_ne_none_of_le h0 hk)
    rw [searchGrids, hc]
    exact ⟨around_of_holds h0 (Interval.holds_of_nearest? hc), by dsimp only; omega⟩
  | succ steps ih =>
    intro k hk
    rw [searchGrids]
    cases hc : ((Interval.around m q).inUnits k).nearest? with
    | some c => exact ⟨around_of_holds h0 (Interval.holds_of_nearest? hc), by dsimp only; omega⟩
    | none =>
      have hk' : k - (steps + 1 : Nat) = k - 1 - steps := by omega
      rw [hk'] at hk ⊢
      exact ih hk

end Grids

/-! ## Where the search begins -/

/-- Comparing powers of ten and of two: `10^3 ≤ 2^10` and `2^43 ≤ 10^13`. -/
theorem ten_zpow_le {j a : Int} (hpos : 0 ≤ j → 10 * j ≤ 3 * a) (hneg : j < 0 → 43 * j ≤ 13 * a) :
    (10 : ℚ) ^ j ≤ 2 ^ a := by
  have h10 : (10 : ℚ) ≠ 0 := by norm_num
  by_cases hj : 0 ≤ j
  · have hle := hpos hj
    refine le_of_pow_le_pow_left₀ (n := 3) (by norm_num) (zpow_nonneg two_pos.le _) ?_
    calc ((10 : ℚ) ^ j) ^ 3 = (10 ^ 3) ^ j := by rw [← zpow_natCast, ← zpow_natCast, zpow_comm]
      _ ≤ (2 ^ 10) ^ j := zpow_le_zpow_left₀ hj (by norm_num) (by norm_num)
      _ = 2 ^ (10 * j) := by rw [zpow_mul]; norm_cast
      _ ≤ 2 ^ (a * 3) := zpow_le_zpow_right₀ one_le_two (by omega)
      _ = (2 ^ a) ^ 3 := by rw [zpow_mul]; norm_cast
  · have hle := hneg (by omega)
    refine le_of_pow_le_pow_left₀ (n := 13) (by norm_num) (zpow_nonneg two_pos.le _) ?_
    obtain ⟨i, rfl⟩ : ∃ i : Nat, j = -i := ⟨j.natAbs, by omega⟩
    calc ((10 : ℚ) ^ (-i : Int)) ^ 13 = ((10 ^ 13) ^ i)⁻¹ := by
          rw [zpow_neg, inv_pow, zpow_natCast, pow_right_comm]
      _ ≤ ((2 ^ 43) ^ i)⁻¹ := by
          refine inv_anti₀ (pow_pos (by norm_num) i) (pow_le_pow_left₀ (by norm_num) ?_ i)
          norm_num
      _ = 2 ^ (43 * -i : Int) := by
          rw [mul_neg, zpow_neg, zpow_mul, zpow_natCast]
          norm_cast
      _ ≤ 2 ^ (a * 13) := zpow_le_zpow_right₀ one_le_two (by omega)
      _ = (2 ^ a) ^ 13 := by rw [zpow_mul]; norm_cast

section Search

variable {m : Nat} {q : Int}

theorem coarseGrid_bounds (m : Nat) (q : Int) :
    100000 * (coarseGrid m q - 2) ≤ (m.log2 + q) * 30103
      ∧ (m.log2 + q) * 30103 < 100000 * (coarseGrid m q - 1) := by
  rw [coarseGrid, Int.fdiv_eq_ediv_of_nonneg _ (by decide)]
  omega

/-- Twenty-three grids below the first, the grid is fine enough. -/
theorem ten_zpow_coarseGrid_le (h : Canonical m q) :
    (10 : ℚ) ^ (coarseGrid m q - (23 : Nat)) ≤ 2 ^ (q - 2) := by
  obtain ⟨hlow, hhigh⟩ := coarseGrid_bounds m q
  have hlog := h.log2_le
  have hleast := h.least
  have hmost := h.most
  exact ten_zpow_le (fun _ => by omega) (fun _ => by omega)

/-! ## Trailing zeros -/

/-- Zeros that are dropped are made up for by the exponent. -/
theorem Scaled.stripZeros_eq (fuel : Nat) : ∀ d : Scaled,
    ((d.stripZeros fuel).digits : ℚ) * 10 ^ (d.stripZeros fuel).exponent
        = d.digits * 10 ^ d.exponent
      ∧ d.exponent ≤ (d.stripZeros fuel).exponent := by
  induction fuel with
  | zero => exact fun d => ⟨rfl, Int.le_refl _⟩
  | succ fuel ih =>
    intro d
    rw [Scaled.stripZeros]
    split
    · rename_i hzero
      obtain ⟨hvalue, hle⟩ := ih ⟨d.digits / 10, d.exponent + 1⟩
      have hdigits : (d.digits : ℚ) = (d.digits / 10 : Nat) * 10 := by
        exact_mod_cast (Nat.div_mul_cancel (Nat.dvd_of_mod_eq_zero hzero.2)).symm
      refine ⟨hvalue.trans ?_, by dsimp only at hle; omega⟩
      show ((d.digits / 10 : Nat) : ℚ) * 10 ^ (d.exponent + 1) = d.digits * 10 ^ d.exponent
      rw [hdigits, zpow_add_one₀ (by norm_num), mul_assoc, mul_comm (10 : ℚ)]
    · exact ⟨rfl, Int.le_refl _⟩

/-- **The shortest decimal of a float lies in the rounding interval of the float.** -/
theorem around_shortest (h : Canonical m q) :
    Around m q ((shortest m q).digits * 10 ^ (shortest m q).exponent)
      ∧ 0 < (shortest m q).digits ∧ -345 ≤ (shortest m q).exponent := by
  obtain ⟨haround, hle⟩ := around_of_searchGrids h.pos (ten_zpow_coarseGrid_le h)
  obtain ⟨hvalue, hstrip⟩ := Scaled.stripZeros_eq 400
    (searchGrids (.around m q) (23 + 1) (coarseGrid m q))
  rw [← hvalue] at haround
  change Around m q ((shortest m q).digits * 10 ^ (shortest m q).exponent) at haround
  refine ⟨haround, Nat.pos_of_ne_zero fun h0 => ?_, ?_⟩
  · have hpos := haround.pos h
    rw [h0, Nat.cast_zero, zero_mul] at hpos
    exact lt_irrefl 0 hpos
  · obtain ⟨-, hhigh⟩ := coarseGrid_bounds m q
    have hleast := h.least
    refine Int.le_trans ?_ hstrip
    refine Int.le_trans ?_ hle
    omega

end Search

/-! ## Reading a decimal

Few powers of ten are floats exactly, and only those may be divided by without more ado.  They are
looked up, and checked one by one. -/

section Reading

variable {m n d p : Nat} {e q : Int}

theorem value_of_scaledInteger? (h : scaledInteger? m e = some n) : (m : ℚ) * 2 ^ e = n := by
  obtain ⟨k, ⟨rfl, rfl⟩ | ⟨rfl, rfl⟩⟩ := scaledInteger?_eq_some h
  · rw [zpow_natCast, Nat.cast_mul, Nat.cast_pow, Nat.cast_ofNat]
  · rw [zpow_neg, zpow_natCast, Nat.cast_mul, Nat.cast_pow, Nat.cast_ofNat,
      mul_inv_cancel_right₀ (pow_ne_zero _ two_ne_zero)]

/-- A float is a power of ten, exactly. -/
def isPowerOfTen (x : Float) (p : Nat) : Bool :=
  match Binary.read x with
  | .finite false m e => m != 0 && scaledInteger? m e == some (10 ^ p)
  | _ => false

/-- The powers of ten that are looked up are exact. -/
theorem exists_unpack_powerOfTen (hp : p < Float.exactlyRepresentablePowersOfTen.size) :
    ∃ (m : Nat) (e : Int) (h : 0 < m), (m : ℚ) * 2 ^ e = 10 ^ p
      ∧ (Float.exactlyRepresentablePowersOfTen[p]).toModel.unpack = .finite .positive m e h := by
  have hall : ∀ i : Fin 23, isPowerOfTen Float.exactlyRepresentablePowersOfTen[i] i = true := by
    decide +kernel
  have hi := hall ⟨p, hp⟩
  rw [isPowerOfTen] at hi
  split at hi
  · rename_i m e hread
    obtain ⟨h0, hten⟩ := Bool.and_eq_true_iff.1 hi
    obtain ⟨hm, -⟩ | ⟨hm, hunpack⟩ := unpack_of_read hread
    · exact absurd hm (bne_iff_ne.1 h0)
    · refine ⟨m, e, hm, ?_, hunpack⟩
      rw [value_of_scaledInteger? (beq_iff_eq.1 hten), Nat.cast_pow, Nat.cast_ofNat]
  · cases hi

/-- **A decimal in the rounding interval of a float is read as that float.** -/
theorem ofScientific_of_around (h : Canonical m q) (hd : d ≠ 0) (hp : p ≠ 0) (hle : p ≤ 2048)
    (hx : Around m q (d / 10 ^ p)) :
    (Float.ofScientific d true p).toModel.unpack = .finite .positive m q h.pos := by
  have hsign : (Sign.positive / Sign.positive) = Sign.positive := rfl
  rw [Float.ofScientific]
  split
  · -- the fast way divides two floats that are exact
    rename_i hfast
    have hsize : p < Float.exactlyRepresentablePowersOfTen.size := Nat.lt_succ_of_le hfast.2
    have hnormal := normal_shift hd hfast.1
    have hdigits := value_of_scaledInteger? (scaledInteger?_shift d (52 - d.log2))
    obtain ⟨m₂, e₂, h₂, hvalue, hten⟩ := exists_unpack_powerOfTen hsize
    rw [← hdigits, ← hvalue] at hx
    show (Float.Model.pack (UnpackedFloat.div Format.binary64 (d.toUInt64.toFloat).toModel.unpack
      (Float.exactlyRepresentablePowersOfTen[p]).toModel.unpack)).unpack = _
    rw [unpack_toFloat hnormal hfast.1, hten, div_of_around h hnormal.pos h₂ hx, hsign]
    exact unpack_pack_of_canonical h
  · obtain ⟨j, rfl⟩ := Nat.exists_eq_succ_of_ne_zero hp
    have hx' : Around m q ((d : ℚ) * 2 ^ (0 : Int) / ((10 ^ (j + 1) : Nat) * 2 ^ (0 : Int))) := by
      rw [zpow_zero, mul_one, mul_one, Nat.cast_pow, Nat.cast_ofNat]
      exact hx
    have hlow : ¬ Int.negSucc j < -((2 ^ Format.binary64.exponentBits : Int) + d.log2) := by
      rw [show (2 ^ Format.binary64.exponentBits : Int) = 2048 from rfl]
      omega
    show (Float.Model.pack (UnpackedFloat.ofScientific Format.binary64 d (Int.negSucc j))).unpack
      = _
    have hdiv : UnpackedFloat.div Format.binary64 (.finite .positive d 0 (Nat.pos_of_ne_zero hd))
        (.finite .positive (10 ^ (j + 1)) 0 (Nat.pow_pos (by decide)))
        = .finite (.positive / .positive) m q h.pos := div_of_around h _ _ hx'
    rw [hsign] at hdiv
    have hhigh : ¬ Int.negSucc j > 2 ^ Format.binary64.exponentBits := by
      rw [show (2 ^ Format.binary64.exponentBits : Int) = 2048 from rfl]
      omega
    rw [UnpackedFloat.ofScientific, dif_neg hd, if_neg hhigh, if_neg hlow,
      if_neg (Int.not_le.2 (Int.negSucc_lt_zero j))]
    exact (congrArg (fun u => (Float.Model.pack u).unpack) hdiv).trans (unpack_pack_of_canonical h)

end Reading

end Decimal
end ScriptPool
