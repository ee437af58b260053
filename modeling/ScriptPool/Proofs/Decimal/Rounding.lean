import ScriptPool.Decimal.Shortest
import ScriptPool.Proofs.Decimal.Whole

/-!
# Rounding a quotient

Floats are divided by dividing their mantissas as integers and keeping two bits of what is left
over.  These are enough to round the quotient to the nearest float, and in the middle between two to
the even one.  So whichever number of the rounding interval of a float a quotient is, it is rounded
to that float.

The place of a quotient is found from its leading digit.  Around a power of two the numbers that
are rounded to it lie on both sides of it, so those below belong one place lower, and are rounded
up to a mantissa that has one bit too many.

## What is here

* `Describes` — what a mantissa and two bits say about a number, and `Describes.rounded`.
* `Canonical`, `Around` — the finite floats, and the numbers that are rounded to each of them.
* `div_of_around` — **a quotient in the rounding interval of a float is rounded to it.**
* `unpack_pack_of_canonical` — **what is rounded is stored as it is.**
-/

set_option autoImplicit false

namespace ScriptPool
namespace Decimal

open Float.Model Float.Model.UnpackedFloat

/-! ## Integers with two more bits

What is rounded off is a fraction, of which only this is kept: whether it is zero, below a half, a
half or above it.  Two bits are enough for that, and they can be kept up to date when one more digit
is dropped. -/

/-- Where a fraction lies that is rounded off. -/
def Places : Accuracy → ℚ → Prop
  | .exact, r => r = 0
  | .inexact .lt, r => 0 < r ∧ r < 1 / 2
  | .inexact .eq, r => r = 1 / 2
  | .inexact .gt, r => 1 / 2 < r ∧ r < 1

/-- The mantissa is the integer below a number, and its bits place the fraction above it. -/
def Describes (em : ExtendedMantissa) (x : ℚ) : Prop := Places em.accuracy (x - em.mantissa)

theorem places_bounds {a : Accuracy} {r : ℚ} (h : Places a r) : 0 ≤ r ∧ r < 1 := by
  rw [Places.eq_def] at h
  split at h <;> constructor <;> linarith

theorem accuracy_ofMantissaAndAccuracy (m : Nat) (a : Accuracy) :
    (ExtendedMantissa.ofMantissaAndAccuracy m a).accuracy = a
      ∧ (ExtendedMantissa.ofMantissaAndAccuracy m a).mantissa = m := by
  rcases a with _ | o
  · exact ⟨rfl, rfl⟩
  · cases o <;> exact ⟨rfl, rfl⟩

theorem describes_ofMantissaAndAccuracy {m : Nat} {a : Accuracy} {x : ℚ} :
    Describes (.ofMantissaAndAccuracy m a) x ↔ Places a (x - m) := by
  obtain ⟨ha, hm⟩ := accuracy_ofMantissaAndAccuracy m a
  rw [Describes, ha, hm]

/-- The remainder of a division places the fraction of the quotient. -/
theorem places_fraction {r d : Nat} (h : r < d) : Places (accuracyOfFraction r d) (r / d) := by
  have hd : (0 : ℚ) < d := Nat.cast_pos.2 (Nat.zero_lt_of_lt h)
  have hlt : (r : ℚ) / d < 1 := (div_lt_one hd).2 (Nat.cast_lt.2 h)
  rw [accuracyOfFraction]
  split
  · rename_i h0
    rw [h0, Nat.cast_zero, zero_div]
    rfl
  · rename_i h0
    have hpos : (0 : ℚ) < r / d := div_pos (Nat.cast_pos.2 (Nat.pos_of_ne_zero h0)) hd
    rcases Nat.lt_trichotomy (2 * r) d with hr | hr | hr
    · rw [Nat.compare_eq_lt.2 hr]
      refine ⟨hpos, ?_⟩
      rw [div_lt_div_iff₀ hd two_pos]
      exact_mod_cast (by omega : r * 2 < 1 * d)
    · rw [Nat.compare_eq_eq.2 hr, Places, div_eq_div_iff hd.ne' two_ne_zero]
      exact_mod_cast (by omega : r * 2 = 1 * d)
    · rw [Nat.compare_eq_gt.2 hr]
      refine ⟨?_, hlt⟩
      rw [div_lt_div_iff₀ two_pos hd]
      exact_mod_cast (by omega : 1 * d < r * 2)

/-- A quotient is described by the integral quotient and the remainder. -/
theorem describes_div (n : Nat) {d : Nat} (hd : 0 < d) :
    Describes (.ofMantissaAndAccuracy (n / d) (accuracyOfFraction (n % d) d)) (n / d) := by
  have hd' : (d : ℚ) ≠ 0 := Nat.cast_ne_zero.2 hd.ne'
  have hfraction : (n : ℚ) / d - (n / d : Nat) = (n % d : Nat) / d := by
    have hn : (n : ℚ) = d * (n / d : Nat) + (n % d : Nat) := by
      exact_mod_cast (Nat.div_add_mod n d).symm
    rw [div_sub' hd', sub_eq_of_eq_add' hn]
  rw [describes_ofMantissaAndAccuracy, hfraction]
  exact places_fraction (Nat.mod_lt n hd)

/-- What the bits become when one more is dropped. -/
theorem places_half {m m' : Nat} {bit round sticky : Bool} {r : ℚ}
    (h : Places (ExtendedMantissa.accuracy ⟨m, round, sticky⟩) r) :
    Places (ExtendedMantissa.accuracy ⟨m', bit, round || sticky⟩) ((r + bit.toNat) / 2) := by
  cases bit <;> cases round <;> cases sticky <;>
    simp only [ExtendedMantissa.accuracy, Places, Bool.or_false, Bool.or_true, Bool.toNat_false,
      Bool.toNat_true, Nat.cast_zero, Nat.cast_one] at h ⊢ <;>
    first | linarith | exact ⟨by linarith, by linarith⟩

/-- Dropping a bit of the mantissa halves the number. -/
theorem Describes.shiftRightOne {em : ExtendedMantissa} {x : ℚ} (h : Describes em x) :
    Describes em.shiftRightOne (x / 2) := by
  have hm : (em.mantissa : ℚ) = 2 * (em.mantissa / 2 : Nat) + (em.mantissa % 2 != 0).toNat := by
    have hbit : (em.mantissa % 2 != 0).toNat = em.mantissa % 2 := by
      rcases Nat.mod_two_eq_zero_or_one em.mantissa with h0 | h1
      · rw [h0]
        rfl
      · rw [h1]
        rfl
    rw [hbit]
    exact_mod_cast (Nat.div_add_mod em.mantissa 2).symm
  have hhalf : x / 2 - (em.mantissa / 2 : Nat)
      = (x - em.mantissa + (em.mantissa % 2 != 0).toNat) / 2 := by
    linarith
  show Places _ (x / 2 - (em.mantissa / 2 : Nat))
  rw [hhalf]
  exact places_half h

theorem Describes.floor {em : ExtendedMantissa} {x : ℚ} (h : Describes em x) :
    em.mantissa ≤ x ∧ x < em.mantissa + 1 := by
  have hbounds := places_bounds h
  constructor <;> linarith

theorem Describes.shiftRight {em : ExtendedMantissa} {x : ℚ} (h : Describes em x) (k : Nat) :
    Describes (em >>> k) (x / 2 ^ k) := by
  induction k with
  | zero =>
    rw [pow_zero, div_one]
    exact h
  | succ k ih =>
    rw [pow_succ, ← div_div]
    exact ih.shiftRightOne

/-! ## Rounding to the nearest integer -/

/-- The integer is the nearest to the number, and even if another one is as near. -/
structure RoundsTo (x : ℚ) (m : Nat) : Prop where
  low : (m : ℚ) - 1 / 2 ≤ x
  high : x ≤ (m : ℚ) + 1 / 2
  inside : m % 2 = 1 → (m : ℚ) - 1 / 2 < x ∧ x < (m : ℚ) + 1 / 2

/-- The bits are enough to round to the nearest. -/
theorem Describes.rounded {em : ExtendedMantissa} {x : ℚ} {m : Nat} (h : Describes em x)
    (hx : RoundsTo x m) : em.roundedMantissa = m := by
  obtain ⟨hlow, hhigh, hinside⟩ := hx
  have hnear : m = em.mantissa ∨ m = em.mantissa + 1 := by
    have hbounds := places_bounds h
    have hle : em.mantissa ≤ m := by
      have hlt : (em.mantissa : ℚ) < m + 1 := by linarith
      exact Nat.lt_succ_iff.1 (by exact_mod_cast hlt)
    have hge : m ≤ em.mantissa + 1 := by
      have hlt : (m : ℚ) < em.mantissa + 2 := by linarith
      exact Nat.lt_succ_iff.1 (by exact_mod_cast hlt)
    omega
  have hnext : m = em.mantissa + 1 → (m : ℚ) = em.mantissa + 1 := fun he => by
    rw [he, Nat.cast_succ]
  change Places em.accuracy (x - em.mantissa) at h
  rw [ExtendedMantissa.roundedMantissa]
  generalize em.accuracy = a at h ⊢
  rcases a with _ | o
  · rw [Places] at h
    rcases hnear with rfl | he
    · rfl
    · have := hnext he
      linarith
  cases o with
  | lt =>
    rcases hnear with rfl | he
    · rfl
    · have := hnext he
      linarith [h.2]
  | gt =>
    rcases hnear with rfl | he
    · linarith [h.1]
    · exact he.symm
  | eq =>
    -- in the middle, the mantissa that is rounded to is even
    rw [Places] at h
    rw [Accuracy.roundToNearestEven]
    rcases Nat.mod_two_eq_zero_or_one m with heven | hodd
    · omega
    · have := hinside hodd
      rcases hnear with rfl | he
      · linarith
      · have := hnext he
        linarith

/-! ## The floats

The numbers that are rounded to a float make up an interval around it, which is not symmetric below
a power of two.  That case is apart from the others throughout. -/

/-- The mantissa and the exponent of a float: a normal one, or one of the smallest. -/
structure Canonical (m : Nat) (q : Int) : Prop where
  pos : 0 < m
  high : m < 2 ^ 53
  least : -1074 ≤ q
  most : q ≤ 971
  full : 2 ^ 52 ≤ m ∨ q = -1074

theorem Normal.canonical {m : Nat} {q : Int} (h : Normal m q) : Canonical m q :=
  ⟨h.pos, h.high, h.least, h.most, .inl h.low⟩

theorem canonical_of_read {x : Float} {neg : Bool} {m : Nat} {q : Int}
    (h : Binary.read x = .finite neg m q) (h0 : m ≠ 0) : Canonical m q := by
  rcases normal_of_read h with hnormal | ⟨hm, hq⟩
  · exact hnormal.canonical
  · exact ⟨Nat.pos_of_ne_zero h0, by omega, by omega, by omega, .inr hq⟩

/-- How far below a float the numbers begin that are rounded to it, in units of its last place. -/
def below (m : Nat) (q : Int) : ℚ := if narrowBelow m q then 1 / 4 else 1 / 2

/-- The numbers that are rounded to a float.  Those at the ends are if its mantissa is even. -/
structure Around (m : Nat) (q : Int) (x : ℚ) : Prop where
  low : (m - below m q) * 2 ^ q ≤ x
  high : x ≤ (m + 1 / 2) * 2 ^ q
  inside : m % 2 = 1 → (m - below m q) * 2 ^ q < x ∧ x < (m + 1 / 2) * 2 ^ q

section Rounding

variable {m n : Nat} {e q t : Int} {a : Accuracy} {x y : ℚ}

theorem Canonical.log2_le (h : Canonical m q) : m.log2 ≤ 52 :=
  Nat.le_of_lt_succ ((Nat.log2_lt (Nat.pos_iff_ne_zero.1 h.pos)).2 h.high)

theorem targetExponent_eq (t : Int) : Format.binary64.targetExponent t = max (t - 53) (-1074) := rfl

theorem Canonical.targetExponent (h : Canonical m q) :
    Format.binary64.targetExponent (totalExponent m q) = q := by
  have hle := h.log2_le
  have hleast := h.least
  rw [targetExponent_eq, totalExponent]
  rcases h.full with hfull | rfl
  · have hge : 52 ≤ m.log2 := (Nat.le_log2 (Nat.pos_iff_ne_zero.1 h.pos)).2 hfull
    omega
  · omega

/-- Shifting to the place where a number belongs. -/
theorem shiftToTargetExponent_eq
    (ht : Format.binary64.targetExponent (totalExponent n e) = q) (he : e ≤ q) :
    shiftToTargetExponent Format.binary64 n e a
      = (ExtendedMantissa.ofMantissaAndAccuracy n a >>> (q - e).toNat, q) := by
  have hq : e + ((q - e).toNat : Int) = q := by omega
  rw [shiftToTargetExponent, ht, shiftToExponent, hq]

/-- What is rounded at the place of a float to its mantissa becomes that float. -/
theorem roundWithAccuracy_of_roundsTo (hm : Canonical m q) (s : Sign)
    (ht : Format.binary64.targetExponent (totalExponent n e) = q) (he : e ≤ q)
    (hn : Describes (.ofMantissaAndAccuracy n a) x) (hx : RoundsTo (x / 2 ^ (q - e).toNat) m) :
    roundWithAccuracy Format.binary64 s n e a = .finite s m q hm.pos := by
  have hrounded := (hn.shiftRight (q - e).toNat).rounded hx
  have hagain : shiftToTargetExponent Format.binary64 m q .exact = (⟨m, false, false⟩, q) := by
    rw [shiftToTargetExponent_eq hm.targetExponent (Int.le_refl q), Int.sub_self]
    rfl
  rw [roundWithAccuracy, shiftToTargetExponent_eq ht he]
  simp only [hrounded, hagain]
  rw [dif_neg (Nat.pos_iff_ne_zero.1 hm.pos)]

/-- What is rounded up to a mantissa of one more bit loses the last one, which is zero. -/
theorem roundWithAccuracy_of_carry (hq : Normal (2 ^ 52) (q + 1)) (s : Sign)
    (ht : Format.binary64.targetExponent (totalExponent n e) = q) (he : e ≤ q)
    (hn : Describes (.ofMantissaAndAccuracy n a) x)
    (hx : RoundsTo (x / 2 ^ (q - e).toNat) (2 ^ 53)) :
    roundWithAccuracy Format.binary64 s n e a = .finite s (2 ^ 52) (q + 1) hq.pos := by
  have hrounded := (hn.shiftRight (q - e).toNat).rounded hx
  have hagain := shiftToTargetExponent_normal hq 1
  have hback : q + 1 - ((1 : Nat) : Int) = q := by omega
  rw [hback, ← Nat.pow_succ] at hagain
  rw [roundWithAccuracy, shiftToTargetExponent_eq ht he]
  simp only [hrounded, hagain]
  rw [dif_neg (Nat.pos_iff_ne_zero.1 hq.pos)]

/-- The same number, counted in larger units. -/
theorem mul_zpow_eq (y : ℚ) (h : e ≤ q) : y * 2 ^ e = y / 2 ^ (q - e).toNat * 2 ^ q := by
  have hq : (2 : ℚ) ^ q = 2 ^ (q - e).toNat * 2 ^ e := by
    rw [← zpow_natCast, ← zpow_add₀ two_ne_zero]
    congr 1
    omega
  rw [hq, ← mul_assoc, div_mul_cancel₀ _ (pow_ne_zero _ two_ne_zero)]

/-- The leading digit of the integral part, in powers of two. -/
theorem Describes.lt_two_pow (h : Describes (.ofMantissaAndAccuracy n a) y) {j : Nat}
    (hy : y < 2 ^ j) : n < 2 ^ j := by
  have hfloor := h.floor.1
  rw [(accuracy_ofMantissaAndAccuracy n a).2] at hfloor
  exact_mod_cast lt_of_le_of_lt hfloor hy

theorem Describes.two_pow_le (h : Describes (.ofMantissaAndAccuracy n a) y) {j : Nat}
    (hy : 2 ^ j ≤ y) : 2 ^ j ≤ n := by
  have hfloor := h.floor.2
  rw [(accuracy_ofMantissaAndAccuracy n a).2] at hfloor
  exact Nat.lt_succ_iff.1 (by exact_mod_cast lt_of_le_of_lt hy hfloor)

theorem below_le (m : Nat) (q : Int) : below m q ≤ 1 / 2 := by
  rw [below]
  split <;> norm_num

/-- The place of a number is found from the integral part of it. -/
theorem targetExponent_of_describes (hn : Describes (.ofMantissaAndAccuracy n a) y)
    (he : e ≤ q) (hleast : -1074 ≤ q) (hlow : 2 ^ 52 ≤ y / 2 ^ (q - e).toNat ∨ q = -1074)
    (hhigh : y / 2 ^ (q - e).toNat < 2 ^ 53) :
    Format.binary64.targetExponent (totalExponent n e) = q := by
  obtain ⟨k, hk⟩ : ∃ k, k = (q - e).toNat := ⟨_, rfl⟩
  have hpow : (0 : ℚ) < 2 ^ k := pow_pos two_pos k
  rw [← hk, div_lt_iff₀ hpow, ← pow_add] at hhigh
  rw [← hk, le_div_iff₀ hpow, ← pow_add] at hlow
  have hlt : n < 2 ^ (53 + k) := hn.lt_two_pow hhigh
  rw [targetExponent_eq, totalExponent]
  by_cases h0 : n = 0
  · rcases hlow with hlow | rfl
    · have hle := hn.two_pow_le hlow
      exact absurd hle (by rw [h0]; exact Nat.not_le.2 (Nat.two_pow_pos _))
    · rw [h0, Nat.log2_zero]
      omega
  · have hlog := (Nat.log2_lt h0).2 hlt
    rcases hlow with hlow | rfl
    · have := (Nat.le_log2 h0).2 (hn.two_pow_le hlow)
      omega
    · omega

theorem two_zpow_add (j : Nat) (q : Int) : (2 : ℚ) ^ (j + q) = 2 ^ j * 2 ^ q := by
  rw [zpow_add₀ two_ne_zero, zpow_natCast]

/-- Where a float is not the first of its power of two, or among the smallest, the numbers around it
belong at its place. -/
theorem roundWithAccuracy_of_le (hm : Canonical m q) (s : Sign)
    (hn : Describes (.ofMantissaAndAccuracy n a) y) (hx : Around m q (y * 2 ^ e)) (he : e ≤ q)
    (hlow : 2 ^ ((52 : Nat) + q) ≤ y * 2 ^ e ∨ q = -1074) :
    roundWithAccuracy Format.binary64 s n e a = .finite s m q hm.pos := by
  have hq : (0 : ℚ) < 2 ^ q := zpow_pos two_pos q
  rw [mul_zpow_eq y he] at hx hlow
  rw [two_zpow_add] at hlow
  have hxlow := le_of_mul_le_mul_right hx.low hq
  have hxhigh := le_of_mul_le_mul_right hx.high hq
  have hmax : (m : ℚ) + 1 ≤ 2 ^ 53 := by exact_mod_cast hm.high
  have hplace := targetExponent_of_describes hn he hm.least
    (hlow.imp_left fun h => le_of_mul_le_mul_right h hq) (by linarith)
  refine roundWithAccuracy_of_roundsTo hm s hplace he hn ⟨?_, hxhigh, fun hodd => ⟨?_, ?_⟩⟩
  · linarith [below_le m q]
  · linarith [below_le m q, lt_of_mul_lt_mul_right (hx.inside hodd).1 hq.le]
  · exact lt_of_mul_lt_mul_right (hx.inside hodd).2 hq.le

theorem Around.pos (hx : Around m q x) (hm : Canonical m q) : 0 < x := by
  have hone : (1 : ℚ) ≤ m := by exact_mod_cast hm.pos
  refine lt_of_lt_of_le (mul_pos ?_ (zpow_pos two_pos q)) hx.low
  linarith [below_le m q]

theorem Around.lt_two_zpow (hx : Around m q x) (hm : Canonical m q) : x < 2 ^ ((53 : Nat) + q) := by
  have hmax : (m : ℚ) + 1 ≤ 2 ^ 53 := by exact_mod_cast hm.high
  rw [two_zpow_add]
  refine lt_of_le_of_lt hx.high (mul_lt_mul_of_pos_right ?_ (zpow_pos two_pos q))
  linarith

/-- Only the first float of a power of two is rounded to from below that power. -/
theorem eq_of_lt (hm : Canonical m q) (hx : Around m q x) (hhigh : x < 2 ^ ((52 : Nat) + q))
    (hq : q ≠ -1074) : m = 2 ^ 52 ∧ below m q = 1 / 4 := by
  have hlow := lt_of_le_of_lt hx.low hhigh
  rw [two_zpow_add] at hlow
  have hlt := lt_of_mul_lt_mul_right hlow (zpow_pos two_pos q).le
  have hm52 : m = 2 ^ 52 := by
    have hle : m < 2 ^ 52 + 1 := by
      have : (m : ℚ) < 2 ^ 52 + 1 := by linarith [below_le m q]
      exact_mod_cast this
    exact Nat.le_antisymm (Nat.le_of_lt_succ hle) (hm.full.resolve_right hq)
  refine ⟨hm52, ?_⟩
  rw [below, narrowBelow, decide_eq_true hm52, decide_eq_true hq]
  rfl

/-- The numbers below a power of two that are rounded to it belong one place lower. -/
theorem roundWithAccuracy_of_lt (hm : Canonical m q) (s : Sign)
    (hn : Describes (.ofMantissaAndAccuracy n a) y) (hx : Around m q (y * 2 ^ e)) (he : e ≤ q - 1)
    (hhigh : y * 2 ^ e < 2 ^ ((52 : Nat) + q)) (hq : q ≠ -1074) :
    roundWithAccuracy Format.binary64 s n e a = .finite s m q hm.pos := by
  obtain ⟨rfl, hbelow⟩ := eq_of_lt hm hx hhigh hq
  have hxlow := hx.low
  obtain ⟨t, rfl⟩ : ∃ t, q = t + 1 := ⟨q - 1, by omega⟩
  have ht : (0 : ℚ) < 2 ^ t := zpow_pos two_pos t
  have htwo : (2 : ℚ) ^ (t + 1) = 2 * 2 ^ t := by
    rw [zpow_add_one₀ two_ne_zero, mul_comm]
  have hleast := hm.least
  have he : e ≤ t := by omega
  rw [mul_zpow_eq y he] at hxlow hhigh
  rw [hbelow, htwo, ← mul_assoc] at hxlow
  rw [two_zpow_add, htwo, ← mul_assoc] at hhigh
  have hxlow := le_of_mul_le_mul_right hxlow ht
  have hhigh := lt_of_mul_lt_mul_right hhigh ht.le
  norm_num at hxlow hhigh
  have hplace := targetExponent_of_describes hn he (by omega)
    (.inl (by norm_num; linarith)) (by norm_num; linarith)
  refine roundWithAccuracy_of_carry ⟨by norm_num, by norm_num, hm.least, hm.most⟩ s hplace he hn
    ⟨?_, ?_, fun hodd => absurd hodd (by decide)⟩
  · norm_num
    linarith
  · norm_num
    linarith

end Rounding

/-! ## Dividing -/

section Dividing

variable {m m₁ m₂ : Nat} {e₁ e₂ q : Int} {s₁ s₂ : Sign}

/-- The exponents of two numbers tell a bound of their quotient. -/
theorem two_zpow_lt_div (h₁ : 0 < m₁) (h₂ : 0 < m₂) :
    (2 : ℚ) ^ (totalExponent m₁ e₁ - totalExponent m₂ e₂ - 1) < m₁ * 2 ^ e₁ / (m₂ * 2 ^ e₂) := by
  have hlow : (2 : ℚ) ^ m₁.log2 ≤ m₁ := by exact_mod_cast Nat.log2_self_le h₁.ne'
  have hhigh : (m₂ : ℚ) < 2 ^ (m₂.log2 + 1) := by exact_mod_cast Nat.lt_log2_self
  have hpos : (0 : ℚ) < m₂ * 2 ^ e₂ := mul_pos (Nat.cast_pos.2 h₂) (zpow_pos two_pos e₂)
  have hexp : totalExponent m₁ e₁ - totalExponent m₂ e₂ - 1
      = (m₁.log2 + e₁) - ((m₂.log2 + 1 : Nat) + e₂) := by
    rw [totalExponent, totalExponent]
    omega
  rw [hexp, zpow_sub₀ two_ne_zero, two_zpow_add, two_zpow_add,
    div_lt_div_iff₀ (mul_pos (pow_pos two_pos _) (zpow_pos two_pos e₂)) hpos]
  exact mul_lt_mul' (mul_le_mul_of_nonneg_right hlow (zpow_pos two_pos e₁).le)
    (mul_lt_mul_of_pos_right hhigh (zpow_pos two_pos e₂)) hpos.le
    (mul_pos (Nat.cast_pos.2 h₁) (zpow_pos two_pos e₁))

/-- **A quotient in the rounding interval of a float is rounded to it.** -/
theorem div_of_around (hm : Canonical m q) (h₁ : 0 < m₁) (h₂ : 0 < m₂)
    (hx : Around m q (m₁ * 2 ^ e₁ / (m₂ * 2 ^ e₂))) :
    UnpackedFloat.div Format.binary64 (.finite s₁ m₁ e₁ h₁) (.finite s₂ m₂ e₂ h₂)
      = .finite (s₁ / s₂) m q hm.pos := by
  have hlog : (2 : ℚ) ^ (totalExponent m₁ e₁ - totalExponent m₂ e₂ - 1)
      < m₁ * 2 ^ e₁ / (m₂ * 2 ^ e₂) := two_zpow_lt_div h₁ h₂
  rw [UnpackedFloat.div, divCore]
  generalize totalExponent m₁ e₁ - totalExponent m₂ e₂ = t at hlog ⊢
  obtain ⟨e, he⟩ : ∃ e, e = min (e₁ - e₂) (Format.binary64.targetExponent t) := ⟨_, rfl⟩
  rw [← he]
  rw [targetExponent_eq] at he
  have hquotient : (m₁ : ℚ) * 2 ^ e₁ / (m₂ * 2 ^ e₂)
      = ((m₁ <<< (e₁ - e₂ - e).toNat : Nat) : ℚ) / m₂ * 2 ^ e := by
    have hshift := mul_zpow_eq (m₁ * 2 ^ (e₁ - e₂ - e).toNat / m₂ : ℚ) (by omega : e ≤ e₁ - e₂)
    rw [Nat.shiftLeft_eq, Nat.cast_mul, Nat.cast_pow, Nat.cast_ofNat, hshift, zpow_sub₀ two_ne_zero]
    have hk : (2 : ℚ) ^ (e₁ - e₂ - e).toNat ≠ 0 := pow_ne_zero _ two_ne_zero
    field_simp
  have hn := describes_div (m₁ <<< (e₁ - e₂ - e).toNat) h₂
  rw [hquotient] at hx hlog
  have hleast := hm.least
  by_cases hlow : 2 ^ ((52 : Nat) + q) ≤ ((m₁ <<< (e₁ - e₂ - e).toNat : Nat) : ℚ) / m₂ * 2 ^ e
      ∨ q = -1074
  · have hlt := (zpow_lt_zpow_iff_right₀ (one_lt_two (α := ℚ))).1 (lt_trans hlog (hx.lt_two_zpow hm))
    exact roundWithAccuracy_of_le hm _ hn hx (by omega) hlow
  · rw [not_or, not_le] at hlow
    have hlt := (zpow_lt_zpow_iff_right₀ (one_lt_two (α := ℚ))).1 (lt_trans hlog hlow.1)
    exact roundWithAccuracy_of_lt hm _ hn hx (by omega) hlow.1 hlow.2

end Dividing

/-! ## Storing what was rounded -/

section Storing

variable {m : Nat} {q : Int} {s : Sign}

/-- The smallest floats are stored as they are. -/
theorem unpack_pack_of_small (h0 : 0 < m) (h : m < 2 ^ 52) :
    (pack (.finite s m (-1074) h0)).unpack = .finite s m (-1074) h0 := by
  have hlog : m.log2 + 1 ≠ Format.binary64.mantissaBits := by
    have hlt := (Nat.log2_lt h0.ne').2 h
    have hbits : Format.binary64.mantissaBits = 53 := rfl
    omega
  have hpack : UnpackedFloat.pack Format.binary64 (.finite s m (-1074) h0)
      = packComponents Format.binary64 s 0#11 (BitVec.ofNat 52 m) := by
    rw [UnpackedFloat.pack, if_neg (by decide), if_neg hlog]
  have hmant : (BitVec.ofNat 52 m).toNat = m := by
    rw [BitVec.toNat_ofNat, Nat.mod_eq_of_lt h]
  have hzero : BitVec.ofNat 52 m ≠ 0#52 := fun he =>
    h0.ne' (hmant.symm.trans (congrArg BitVec.toNat he))
  show UnpackedFloat.unpack Format.binary64 (UnpackedFloat.pack Format.binary64 _) = _
  rw [hpack, UnpackedFloat.unpack]
  simp only [unpackExponent_packComponents, unpackMantissa_packComponents,
    unpackSign_packComponents]
  rw [if_neg (by decide), if_pos trivial, dif_neg hzero]
  simp only [hmant]
  rfl

/-- **What is rounded is stored as it is.** -/
theorem unpack_pack_of_canonical (h : Canonical m q) :
    (pack (.finite s m q h.pos)).unpack = .finite s m q h.pos := by
  by_cases hfull : 2 ^ 52 ≤ m
  · exact unpack_pack ⟨hfull, h.high, h.least, h.most⟩
  · obtain rfl := h.full.resolve_left hfull
    exact unpack_pack_of_small h.pos (Nat.lt_of_not_le hfull)

theorem unpack_neg_of_canonical {x : Float} (h : Canonical m q)
    (hx : x.toModel.unpack = .finite s m q h.pos) :
    (Float.neg x).toModel.unpack = .finite (-s) m q h.pos := by
  show (Float.Model.pack (UnpackedFloat.neg x.toModel.unpack)).unpack = _
  rw [hx, UnpackedFloat.neg]
  exact unpack_pack_of_canonical h

end Storing

end Decimal
end ScriptPool
