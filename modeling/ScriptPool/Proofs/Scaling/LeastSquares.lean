import Mathlib.Algebra.BigOperators.Fin
import Mathlib.Algebra.Order.BigOperators.Group.Finset
import Mathlib.Data.Rat.Cast.Order
import Mathlib.Tactic.Linarith
import Mathlib.Tactic.LinearCombination
import Mathlib.Tactic.Positivity
import Mathlib.Tactic.Ring
import ScriptPool.Scaling.Prediction

/-!
# The prediction is the best line

A scaler predicts usage from the line that fits the latest usages best.  What it runs with are
floats, and with these the line is only nearly the best one.  The computation is the same on any
`UsageScale`, though, and here it is read in exact numbers, where it can be said what it computes.

Among all lines the best is the one with the least sum of squared errors.  A line that solves the
normal equations, that is, whose errors add up to zero both plainly and weighted by their places,
has less of it than any other line, by the sum of the squares of what the two differ by at the
points.  The slope and the intercept that are computed solve these equations, because the number
that the slope is divided by is not zero: `spread_eq` gives it in closed form.

## What is here

* `Line.IsBestFit` — one line is better than all others.
* `Line.IsNormal.isBestFit` — the normal equations have it as their solution.
* `spread_pos`, `isNormal_bestLine` — the line that is computed solves them.
* `Observation.expected` — the prediction on any scale; `UsageWindow.prediction_eq` says that it is
  the one of a scaler.
* `Observation.expected_leastSquares` — **the prediction in exact numbers.**
-/

set_option autoImplicit false

namespace ScriptPool

open UsageScale

/-! ## Lines and their errors

Nothing is known here of how the line is computed.  What another line has in addition is a sum of
squares, so a solution of the normal equations cannot be beaten. -/

/-- A line through the plane. -/
structure Line where
  slope : ℚ
  intercept : ℚ

namespace Line

variable {ys : List ℚ} {l m : Line}

/-- The height of a line at a place. -/
def value (l : Line) (x : ℚ) : ℚ := l.slope * x + l.intercept

/-- How far off a line is at one of the points `(0, ys[0]), (1, ys[1]), …`. -/
def error (l : Line) (ys : List ℚ) (i : Fin ys.length) : ℚ := l.value i - ys[i]

/-- The sum of the squared errors of a line. -/
def squaredError (l : Line) (ys : List ℚ) : ℚ := ∑ i, l.error ys i ^ 2

/-- No other line has a sum of squared errors that is as small. -/
structure IsBestFit (l : Line) (ys : List ℚ) : Prop where
  least : ∀ m : Line, l.squaredError ys ≤ m.squaredError ys
  unique : ∀ m : Line, m.squaredError ys ≤ l.squaredError ys → m = l

/-- The errors of a line add up to zero, plainly and weighted by their places. -/
structure IsNormal (l : Line) (ys : List ℚ) : Prop where
  sum_error : ∑ i, l.error ys i = 0
  sum_mul_error : ∑ i : Fin ys.length, (i : ℚ) * l.error ys i = 0

/-- **What another line has in addition** is what it differs by. -/
theorem IsNormal.squaredError_eq (h : l.IsNormal ys) (m : Line) :
    m.squaredError ys
      = l.squaredError ys + ∑ i : Fin ys.length, (m.value i - l.value i) ^ 2 := by
  have hcross : ∑ i : Fin ys.length, (m.value i - l.value i) * l.error ys i = 0 := by
    have hsplit : ∀ i : Fin ys.length, (m.value i - l.value i) * l.error ys i
        = (m.slope - l.slope) * (i * l.error ys i)
          + (m.intercept - l.intercept) * l.error ys i := by
      intro i
      simp only [value]
      ring
    rw [Finset.sum_congr rfl fun i _ => hsplit i, Finset.sum_add_distrib, ← Finset.mul_sum,
      ← Finset.mul_sum, h.sum_error, h.sum_mul_error]
    ring
  calc m.squaredError ys
      = ∑ i : Fin ys.length, (l.error ys i ^ 2 + (m.value i - l.value i) ^ 2
          + 2 * ((m.value i - l.value i) * l.error ys i)) := by
        refine Finset.sum_congr rfl fun i _ => ?_
        simp only [error]
        ring
    _ = l.squaredError ys + ∑ i : Fin ys.length, (m.value i - l.value i) ^ 2 := by
        rw [Finset.sum_add_distrib, Finset.sum_add_distrib, ← Finset.mul_sum, hcross, mul_zero,
          add_zero, squaredError]

/-- **The solution of the normal equations is the best line,** if there are two points at least. -/
theorem IsNormal.isBestFit (h : l.IsNormal ys) (hlength : 2 ≤ ys.length) : l.IsBestFit ys where
  least m := by
    rw [h.squaredError_eq m]
    exact le_add_of_nonneg_right (Finset.sum_nonneg fun i _ => sq_nonneg _)
  unique m hle := by
    rw [h.squaredError_eq m, add_le_iff_nonpos_right] at hle
    have hzero := (Finset.sum_eq_zero_iff_of_nonneg fun i _ => sq_nonneg _).1
      (le_antisymm hle (Finset.sum_nonneg fun i _ => sq_nonneg _))
    have hsame : ∀ i : Fin ys.length, m.value i = l.value i :=
      fun i => sub_eq_zero.1 (pow_eq_zero_iff two_ne_zero |>.1 (hzero i (Finset.mem_univ i)))
    have h0 := hsame ⟨0, by omega⟩
    have h1 := hsame ⟨1, by omega⟩
    simp only [value, Nat.cast_zero, Nat.cast_one, mul_zero, mul_one, zero_add] at h0 h1
    obtain ⟨ms, mi⟩ := m
    obtain ⟨ls, li⟩ := l
    simp only at h0 h1
    subst h0
    rw [add_right_cancel h1]

/-- A line through all points is the best one. -/
theorem IsBestFit.eq_of_error (h : l.IsBestFit ys) (hzero : ∀ i, m.error ys i = 0) : m = l := by
  have hm : m.squaredError ys = 0 :=
    Finset.sum_eq_zero fun i _ => by rw [hzero i, zero_pow two_ne_zero]
  exact h.unique m (hm ▸ Finset.sum_nonneg fun i _ => sq_nonneg _)

end Line

/-! ## The line that is computed

The sums are taken over places, which are the numbers from zero on.  So the number that the slope is
divided by does not depend on the points, and it is positive as soon as there are two of them. -/

/-- Usage in exact numbers.  This is an instance in this file only, so that elsewhere the operations
of rational numbers are found where they have always been. -/
local instance exactUsage : UsageScale ℚ where
  ofCount n := n
  less a b := decide (a < b)
  isUndefined _ := false

theorem neutralUsage_eq : (neutralUsage : ℚ) = 1 / 2 := by
  show (((1 : ℕ) : ℚ) / ((2 : ℕ) : ℚ)) = 1 / 2
  norm_num

/-- What is moved into the unit interval is clamped. -/
theorem withinUnit_eq (x : ℚ) : withinUnit x = max 0 (min 1 x) := by
  have hless : ∀ a b : ℚ, less a b = true ↔ a < b := fun a b => decide_eq_true_iff
  have h0 : (ofCount 0 : ℚ) = 0 := Nat.cast_zero
  have h1 : (ofCount 1 : ℚ) = 1 := Nat.cast_one
  simp only [withinUnit, hless, h0, h1]
  split
  case isTrue h => rw [min_eq_right (by linarith), max_eq_left h.le]
  case isFalse h =>
    split
    case isTrue h' => rw [min_eq_left h'.le, max_eq_right zero_le_one]
    case isFalse h' => rw [min_eq_right (not_lt.1 h'), max_eq_right (not_lt.1 h)]

/-- The sums over points, after some others. -/
theorem addFrom_eq (ys : List ℚ) (s : LineSums ℚ) (k : ℕ) :
    s.addFrom k ys = ⟨s.x + ∑ i : Fin ys.length, ((k + i : ℕ) : ℚ),
      s.y + ∑ i : Fin ys.length, ys[i],
      s.xy + ∑ i : Fin ys.length, ((k + i : ℕ) : ℚ) * ys[i],
      s.xx + ∑ i : Fin ys.length, ((k + i : ℕ) : ℚ) ^ 2⟩ := by
  induction ys generalizing s k with
  | nil => simp [LineSums.addFrom]
  | cons y ys ih =>
    have hshift : ∀ i : Fin ys.length, k + 1 + (i : ℕ) = k + (i.succ : ℕ) := fun i => by
      rw [Fin.val_succ, Nat.add_right_comm, Nat.add_assoc]
    have hcount : (ofCount k : ℚ) = k := rfl
    rw [LineSums.addFrom, ih]
    simp only [hshift, LineSums.add, Fin.sum_univ_succ, List.length_cons, hcount,
      LineSums.mk.injEq]
    refine ⟨add_assoc _ _ _, add_assoc _ _ _, add_assoc _ _ _, ?_⟩
    rw [← add_assoc, Fin.val_zero, add_zero, sq (k : ℚ)]

/-- The sums that a line is fitted from. -/
def lineSums (ys : List ℚ) : LineSums ℚ := LineSums.zero.addFrom 0 ys

theorem lineSums_eq (ys : List ℚ) :
    lineSums ys = ⟨∑ i : Fin ys.length, (i : ℚ), ∑ i : Fin ys.length, ys[i],
      ∑ i : Fin ys.length, (i : ℚ) * ys[i], ∑ i : Fin ys.length, (i : ℚ) ^ 2⟩ := by
  have hcount : (ofCount 0 : ℚ) = 0 := Nat.cast_zero
  simp only [lineSums, addFrom_eq, LineSums.zero, hcount, zero_add]

/-- What the slope is divided by. -/
def spread (ys : List ℚ) : ℚ := ys.length * (lineSums ys).xx - (lineSums ys).x * (lineSums ys).x

theorem spread_eq_sums (ys : List ℚ) :
    spread ys = ys.length * ∑ i ∈ Finset.range ys.length, (i : ℚ) ^ 2
      - (∑ i ∈ Finset.range ys.length, (i : ℚ)) ^ 2 := by
  rw [spread, lineSums_eq, sq, Fin.sum_univ_eq_sum_range (fun i => (i : ℚ)),
    Fin.sum_univ_eq_sum_range (fun i => (i : ℚ) ^ 2)]

theorem two_mul_sum_range (n : ℕ) : 2 * ∑ i ∈ Finset.range n, (i : ℚ) = n * (n - 1) := by
  induction n with
  | zero => simp
  | succ n ih =>
    rw [Finset.sum_range_succ, mul_add, ih]
    push_cast
    ring

theorem six_mul_sum_range_sq (n : ℕ) :
    6 * ∑ i ∈ Finset.range n, (i : ℚ) ^ 2 = n * (n - 1) * (2 * n - 1) := by
  induction n with
  | zero => simp
  | succ n ih =>
    rw [Finset.sum_range_succ, mul_add, ih]
    push_cast
    ring

/-- The spread in closed form. -/
theorem spread_eq (ys : List ℚ) :
    12 * spread ys = (ys.length : ℚ) ^ 2 * ((ys.length : ℚ) ^ 2 - 1) := by
  have hx := two_mul_sum_range ys.length
  have hxx := six_mul_sum_range_sq ys.length
  rw [spread_eq_sums]
  linear_combination 2 * (ys.length : ℚ) * hxx
    - 3 * (2 * ∑ i ∈ Finset.range ys.length, (i : ℚ) + ys.length * (ys.length - 1)) * hx

/-- **The slope is never divided by zero.** -/
theorem spread_pos {ys : List ℚ} (h : 2 ≤ ys.length) : 0 < spread ys := by
  have hlength : (2 : ℚ) ≤ ys.length := by exact_mod_cast h
  have hproduct : 0 < (ys.length : ℚ) ^ 2 * ((ys.length : ℚ) ^ 2 - 1) :=
    mul_pos (by positivity) (by nlinarith only [hlength])
  rw [← spread_eq] at hproduct
  exact pos_of_mul_pos_right hproduct (by norm_num)

/-- The line that is fitted. -/
def bestLine (ys : List ℚ) : Line := ⟨(fittedLine ys).1, (fittedLine ys).2⟩

theorem slope_mul_spread {ys : List ℚ} (h : 2 ≤ ys.length) :
    (bestLine ys).slope * spread ys
      = ys.length * (lineSums ys).xy - (lineSums ys).x * (lineSums ys).y :=
  div_mul_cancel₀ _ (spread_pos h).ne'

theorem length_mul_intercept {ys : List ℚ} (h : 2 ≤ ys.length) :
    ys.length * (bestLine ys).intercept
      = (lineSums ys).y - (bestLine ys).slope * (lineSums ys).x :=
  mul_div_cancel₀ _ (Nat.cast_ne_zero.2 (by omega))

theorem extrapolated_eq (ys : List ℚ) : extrapolated ys = (bestLine ys).value ys.length := rfl

/-- **The fitted line solves the normal equations.** -/
theorem isNormal_bestLine {ys : List ℚ} (h : 2 ≤ ys.length) : (bestLine ys).IsNormal ys := by
  have hslope := slope_mul_spread h
  have hintercept := length_mul_intercept h
  have hn : (ys.length : ℚ) ≠ 0 := Nat.cast_ne_zero.2 (by omega)
  rw [spread] at hslope
  constructor
  · have hsum : ∑ i, (bestLine ys).error ys i
        = (bestLine ys).slope * (lineSums ys).x + ys.length * (bestLine ys).intercept
          - (lineSums ys).y := by
      simp only [Line.error, Line.value, Finset.sum_sub_distrib, Finset.sum_add_distrib,
        ← Finset.mul_sum, lineSums_eq, Finset.sum_const, Finset.card_univ, Fintype.card_fin,
        nsmul_eq_mul]
    rw [hsum, hintercept]
    ring
  · have hsum : ∑ i : Fin ys.length, (i : ℚ) * (bestLine ys).error ys i
        = (bestLine ys).slope * (lineSums ys).xx + (bestLine ys).intercept * (lineSums ys).x
          - (lineSums ys).xy := by
      simp only [lineSums_eq, Finset.mul_sum, ← Finset.sum_add_distrib, ← Finset.sum_sub_distrib]
      refine Finset.sum_congr rfl fun i _ => ?_
      rw [Line.error, Line.value]
      ring
    refine (mul_eq_zero_iff_left hn).1 ?_
    rw [hsum]
    linear_combination hslope + (lineSums ys).x * hintercept

/-! ## Observations -/

/-- One observation of a pool, with a rate of requests on any scale. -/
structure Observation (α : Type) where
  inUse : ℕ
  available : ℕ
  rate : α

namespace Observation

section Scale

variable {α : Type} [UsageScale α]

/-- The fraction of the interpreters that are out; `0` for an empty pool. -/
def usage (o : Observation α) : α :=
  if o.inUse + o.available = 0 then ofCount 0
  else ofCount o.inUse / ofCount (o.inUse + o.available)

/-- The usage to expect after some observations. -/
def expected (minHistory : ℕ) (ratio boost : α) (seen : List (Observation α)) : α :=
  expectedUsage minHistory ratio boost (seen.map usage) (seen.map rate)

end Scale

end Observation

/-- A sample as an observation in floats. -/
def UsageSample.observation (s : UsageSample) : Observation Float :=
  ⟨s.inUse, s.available, s.requestRate⟩

/-- **What a scaler computes is the same in floats.** -/
theorem UsageWindow.prediction_eq (w : UsageWindow) (t : ScalingTunables) :
    w.prediction t = Observation.expected t.minHistory t.surgeRatio t.surgeBoost
      (w.samples.map UsageSample.observation) := by
  have hzero : (0.0 : Float) = ofCount 0 := by decide +kernel
  have husage : UsageSample.usage = Observation.usage ∘ UsageSample.observation := by
    funext s
    rw [UsageSample.usage, hzero]
    rfl
  rw [prediction, Observation.expected, List.map_map, List.map_map, ← husage]
  rfl

namespace Observation

variable {seen : List (Observation ℚ)}

theorem isSurge_eq (ratio : ℚ) (before : List (Observation ℚ)) (previous last : Observation ℚ) :
    isSurge ratio ((before ++ [previous, last]).map rate) = true
      ↔ previous.rate * ratio < last.rate := by
  rw [isSurge, List.map_append, List.reverse_append]
  exact decide_eq_true_iff

theorem exists_last_two {β : Type} {l : List β} (h : 2 ≤ l.length) :
    ∃ before previous last, l = before ++ [previous, last] := by
  obtain rfl | ⟨l, last, rfl⟩ := l.eq_nil_or_concat
  · simp at h
  · obtain rfl | ⟨before, previous, rfl⟩ := l.eq_nil_or_concat
    · simp at h
    · exact ⟨before, previous, last, by simp⟩

/-- With too few observations the prediction is a half. -/
theorem expected_of_lt {minHistory : ℕ} {ratio boost : ℚ}
    (h : seen.length < max minHistory 2) : expected minHistory ratio boost seen = 1 / 2 := by
  rw [expected, expectedUsage, if_pos (by rwa [List.length_map]), neutralUsage_eq]

/-- With enough of them it is read off the line, and raised in a surge. -/
theorem expected_of_le {minHistory : ℕ} {ratio boost : ℚ} {before : List (Observation ℚ)}
    {previous last : Observation ℚ} (hseen : seen = before ++ [previous, last])
    (h : max minHistory 2 ≤ seen.length) :
    expected minHistory ratio boost seen = max 0 (min 1
      (if previous.rate * ratio < last.rate then extrapolated (seen.map usage) * boost
        else extrapolated (seen.map usage))) := by
  have hsurge := isSurge_eq ratio before previous last
  rw [← hseen] at hsurge
  have hshort : ¬ (seen.map usage).length < max minHistory 2 := by
    rw [List.length_map]
    exact not_lt.2 h
  have hdefined : ∀ x : ℚ, isUndefined x = false := fun _ => rfl
  simp only [expected, expectedUsage, if_neg hshort, hdefined, Bool.false_eq_true, if_false,
    withinUnit_eq, hsurge]

/-- **The prediction in exact numbers.**  After too few observations it is a half.  Otherwise the
number that the slope is divided by is positive, there is one best line through the usages, and the
prediction is read off this line at the place of the next observation.  If the usages lie on a line
themselves, then it is that line.  The prediction is raised exactly if the last rate of requests
exceeds the one before by more than the ratio, and what comes of it is kept in the unit interval. -/
theorem expected_leastSquares (minHistory : ℕ) (ratio boost : ℚ) (seen : List (Observation ℚ)) :
    (seen.length < max minHistory 2 → expected minHistory ratio boost seen = 1 / 2)
    ∧ (max minHistory 2 ≤ seen.length →
      spread (seen.map usage) = seen.length * ∑ i ∈ Finset.range seen.length, (i : ℚ) ^ 2
          - (∑ i ∈ Finset.range seen.length, (i : ℚ)) ^ 2
      ∧ 0 < spread (seen.map usage)
      ∧ ∃ line : Line, line.IsBestFit (seen.map usage)
        ∧ extrapolated (seen.map usage) = line.value seen.length
        ∧ (∀ a b : ℚ, (∀ i (hi : i < seen.length), seen[i].usage = a + b * i) →
            line.value seen.length = a + b * seen.length)
        ∧ ∃ before previous last, seen = before ++ [previous, last]
          ∧ expected minHistory ratio boost seen = max 0 (min 1
              (if previous.rate * ratio < last.rate then line.value seen.length * boost
                else line.value seen.length))) := by
  refine ⟨expected_of_lt, fun h => ?_⟩
  have hlength : 2 ≤ (seen.map usage).length := by
    rw [List.length_map]
    exact le_of_max_le_right h
  have hbest := (isNormal_bestLine hlength).isBestFit hlength
  have hvalue : extrapolated (seen.map usage) = (bestLine (seen.map usage)).value seen.length := by
    rw [extrapolated_eq, List.length_map]
  obtain ⟨before, previous, last, hseen⟩ := exists_last_two (le_of_max_le_right h)
  refine ⟨?_, spread_pos hlength, bestLine (seen.map usage), hbest, hvalue, fun a b hline => ?_,
    before, previous, last, hseen, hvalue ▸ expected_of_le hseen h⟩
  · rw [spread_eq_sums, List.length_map]
  · have hthrough : (⟨b, a⟩ : Line) = bestLine (seen.map usage) := by
      refine hbest.eq_of_error fun i => ?_
      have hlt : (i : ℕ) < seen.length := by simpa using i.isLt
      simp only [Line.error, Line.value, Fin.getElem_fin, List.getElem_map, hline i hlt]
      ring
    rw [← hthrough, Line.value, add_comm]

/-- Two of five interpreters are always out, and then requests come in twice as fast. -/
def surging : List (Observation ℚ) := [⟨4, 6, 10⟩, ⟨4, 6, 10⟩, ⟨4, 6, 10⟩, ⟨4, 6, 20⟩]

/-- The line is level, and the prediction a tenth above it; two observations are too few. -/
theorem expected_leastSquares_surging :
    expected 3 (6 / 5) (11 / 10) surging = 11 / 25
    ∧ expected 3 (6 / 5) (11 / 10) (surging.take 2) = 1 / 2 := by
  refine ⟨?_, (expected_leastSquares 3 (6 / 5) (11 / 10) (surging.take 2)).1 (by decide)⟩
  obtain ⟨-, -, line, -, -, hlevel, before, previous, last, hseen, hexpected⟩ :=
    (expected_leastSquares 3 (6 / 5) (11 / 10) surging).2 (by decide)
  have hfraction : ∀ rate : ℚ, usage ⟨4, 6, rate⟩ = 2 / 5 := by
    intro rate
    show (((4 : ℕ) : ℚ) / ((10 : ℕ) : ℚ)) = 2 / 5
    norm_num
  have hall : ∀ o ∈ surging, o.usage = 2 / 5 := by simp [surging, hfraction]
  have husage : ∀ i (hi : i < surging.length), surging[i].usage = 2 / 5 + 0 * i := by
    intro i hi
    rw [hall _ (List.getElem_mem hi), zero_mul, add_zero]
  have hlast : [(⟨4, 6, 10⟩ : Observation ℚ), ⟨4, 6, 20⟩] = [previous, last] :=
    (List.append_inj' (show [⟨4, 6, 10⟩, ⟨4, 6, 10⟩] ++ [⟨4, 6, 10⟩, ⟨4, 6, 20⟩]
      = before ++ [previous, last] from hseen) rfl).2
  obtain ⟨rfl, rfl⟩ : ⟨4, 6, 10⟩ = previous ∧ ⟨4, 6, 20⟩ = last := by simpa using hlast
  rw [hexpected, hlevel (2 / 5) 0 husage]
  norm_num

end Observation
end ScriptPool
