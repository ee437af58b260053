import Mathlib
import ScriptPool.Decimal.Binary

/-!
# Normal numbers

A float is sixty-four bits, and its arithmetic is defined on what these unpack to: zeros,
infinities, what is not a number, and a mantissa with an exponent and a sign.  `Binary.read` reads
the same from the bits, and this file connects the two.

The numbers that matter here are `Normal`: their mantissa has all of its fifty-three bits, and there
is room for the exponent.  They are stored as they are, and a number that differs from one of them
by trailing zeros only is rounded to it.

## What is here

* `read_eq` — `Binary.read` reads what the bits unpack to.
* `Normal`, `unpack_pack` — normal numbers survive being stored.
* `roundWithAccuracy_normal` — rounding what needs none.
-/

set_option autoImplicit false

namespace ScriptPool
namespace Decimal

open Float.Model Float.Model.UnpackedFloat

/-! ## The fields of a word -/

/-- The reading of an unpacked float. -/
def Binary.ofUnpacked : UnpackedFloat → Binary
  | .notANumber => .nan
  | .infinity s => .infinite (s == .negative)
  | .zero s => .finite (s == .negative) 0 (-1074)
  | .finite s m e _ => .finite (s == .negative) m e

theorem toNat_unpackMantissa (b : BitVec Format.binary64.numBits) :
    (unpackMantissa b).toNat = b.toNat % 2 ^ 52 := by
  rw [unpackMantissa, BitVec.toNat_cast, BitVec.extractLsb_toNat, Nat.shiftRight_zero]
  rfl

theorem toNat_unpackExponent (b : BitVec Format.binary64.numBits) :
    (unpackExponent b).toNat = b.toNat / 2 ^ 52 % 2 ^ 11 := by
  rw [unpackExponent, BitVec.toNat_cast, BitVec.extractLsb_toNat, Nat.shiftRight_eq_div_pow]
  rfl

theorem toNat_unpackSign (b : BitVec Format.binary64.numBits) :
    (unpackSign b).toNat = b.toNat / 2 ^ 63 % 2 := by
  rw [unpackSign, BitVec.toNat_cast, BitVec.extractLsb_toNat, Nat.shiftRight_eq_div_pow]
  rfl

theorem unpackSign_eq (b : BitVec Format.binary64.numBits) :
    (Sign.ofBitVec (unpackSign b) == .negative) = decide (2 ^ 63 ≤ b.toNat) := by
  have hb : b.toNat < 2 ^ 64 := b.isLt
  have hs := toNat_unpackSign b
  rw [Sign.ofBitVec]
  by_cases h : 2 ^ 63 ≤ b.toNat
  · have h0 : unpackSign b ≠ 0#1 := by
      intro h0
      rw [h0, BitVec.toNat_zero] at hs
      omega
    rw [if_neg h0, decide_eq_true h]
    rfl
  · have h0 : unpackSign b = 0#1 := by
      apply BitVec.eq_of_toNat_eq
      rw [hs, BitVec.toNat_zero]
      omega
    rw [if_pos h0, decide_eq_false h]
    rfl

/-- The leading bit of a mantissa is not stored. -/
theorem toNat_implicit (m : BitVec 52) : (1#1 ++ m).toNat = 2 ^ 52 + m.toNat := by
  rw [BitVec.toNat_append, ← Nat.shiftLeft_add_eq_or_of_lt m.isLt]
  rfl

theorem toNat_packComponents (s : Sign) (e : BitVec 11) (m : BitVec 52) :
    (packComponents Format.binary64 s e m).toNat
      = s.toBitVec.toNat * 2 ^ 63 + e.toNat * 2 ^ 52 + m.toNat := by
  have hpow : 2 ^ 63 = 2 ^ 11 * 2 ^ 52 := by decide
  rw [packComponents, BitVec.toNat_append, BitVec.toNat_append,
    ← Nat.shiftLeft_add_eq_or_of_lt e.isLt, ← Nat.shiftLeft_add_eq_or_of_lt m.isLt,
    Nat.shiftLeft_eq, Nat.shiftLeft_eq, Nat.add_mul, Nat.mul_assoc, hpow]

theorem unpackSign_packComponents (s : Sign) (e : BitVec 11) (m : BitVec 52) :
    Sign.ofBitVec (unpackSign (packComponents Format.binary64 s e m)) = s := by
  have he : e.toNat < 2 ^ 11 := e.isLt
  have hm : m.toNat < 2 ^ 52 := m.isLt
  have hs : s.toBitVec.toNat < 2 := s.toBitVec.isLt
  have hsign : unpackSign (packComponents Format.binary64 s e m) = s.toBitVec := by
    apply BitVec.eq_of_toNat_eq
    rw [toNat_unpackSign, toNat_packComponents]
    omega
  rw [hsign]
  cases s <;> rfl

/-- `Binary.read` reads what the bits unpack to. -/
theorem read_eq (x : Float) : Binary.read x = .ofUnpacked x.toModel.unpack := by
  let b : BitVec Format.binary64.numBits := x.toModel.toBits.toBitVec
  show Binary.ofBits x.toModel.toBits = .ofUnpacked (UnpackedFloat.unpack Format.binary64 b)
  have hword : x.toModel.toBits.toNat = b.toNat := rfl
  have hones : (unpackExponent b = -1#_) ↔ (unpackExponent b).toNat = 2047 :=
    BitVec.toNat_inj.symm
  have hzero : (unpackExponent b = 0#_) ↔ (unpackExponent b).toNat = 0 :=
    BitVec.toNat_inj.symm
  have hfrac : (unpackMantissa b = 0#_) ↔ (unpackMantissa b).toNat = 0 :=
    BitVec.toNat_inj.symm
  rw [Binary.ofBits, UnpackedFloat.unpack, hword]
  simp only [← toNat_unpackMantissa, ← toNat_unpackExponent, ← unpackSign_eq, hones, hzero, hfrac]
  by_cases he : (unpackExponent b).toNat = 2047
  · rw [if_pos he, if_pos he]
    by_cases hm : (unpackMantissa b).toNat = 0
    · rw [if_pos hm, if_pos hm]
      rfl
    · rw [if_neg hm, if_neg hm]
      rfl
  · rw [if_neg he, if_neg he]
    by_cases he0 : (unpackExponent b).toNat = 0
    · rw [if_pos he0, if_pos he0]
      by_cases hm : (unpackMantissa b).toNat = 0
      · rw [dif_pos hm, hm]
        rfl
      · rw [dif_neg hm, he0]
        rfl
    · rw [if_neg he0, if_neg he0, Binary.ofUnpacked, toNat_implicit]
      rfl

/-- What is read as finite is a zero, or unpacks to that mantissa and exponent. -/
theorem unpack_of_read {x : Float} {neg : Bool} {m : Nat} {q : Int}
    (h : Binary.read x = .finite neg m q) :
    (m = 0 ∧ ∃ s, x.toModel.unpack = .zero s)
      ∨ ∃ hm, x.toModel.unpack = .finite (if neg then .negative else .positive) m q hm := by
  rw [read_eq] at h
  cases hx : x.toModel.unpack with
  | zero s =>
    rw [hx] at h
    cases h
    exact .inl ⟨rfl, s, rfl⟩
  | finite s m' e hm =>
    rw [hx] at h
    cases h
    refine .inr ⟨hm, ?_⟩
    cases s <;> rfl
  | notANumber =>
    rw [hx] at h
    cases h
  | infinity s =>
    rw [hx] at h
    cases h

/-! ## Normal numbers -/

/-- A mantissa of fifty-three bits, with an exponent that there is room for. -/
structure Normal (m : Nat) (e : Int) : Prop where
  low : 2 ^ 52 ≤ m
  high : m < 2 ^ 53
  least : -1074 ≤ e
  most : e ≤ 971

/-- Only the smallest numbers are not normal. -/
theorem normal_of_read {x : Float} {neg : Bool} {m : Nat} {q : Int}
    (h : Binary.read x = .finite neg m q) : Normal m q ∨ (m < 2 ^ 52 ∧ q = -1074) := by
  rw [Binary.read, Binary.ofBits] at h
  split at h
  · split at h <;> cases h
  · split at h
    · cases h
      exact .inr ⟨Nat.mod_lt _ (by decide), rfl⟩
    · cases h
      have hlt : x.toBits.toNat % 2 ^ 52 < 2 ^ 52 := Nat.mod_lt _ (by decide)
      exact .inl ⟨by omega, by omega, by omega, by omega⟩

variable {m : Nat} {e : Int}

theorem Normal.log2 (h : Normal m e) : m.log2 = 52 := by
  have hm : m ≠ 0 := fun h0 => absurd h.low (by rw [h0]; decide)
  exact (Nat.log2_eq_iff hm).2 ⟨h.low, h.high⟩

theorem Normal.pos (h : Normal m e) : 0 < m :=
  Nat.lt_of_lt_of_le (by decide) h.low

/-- Normal numbers are stored as they are. -/
theorem unpack_pack {s : Sign} (h : Normal m e) :
    (pack (.finite s m e h.pos)).unpack = .finite s m e h.pos := by
  have hlog : m.log2 + 1 = Format.binary64.mantissaBits := by
    rw [h.log2]
    rfl
  obtain ⟨biased, hb⟩ : ∃ biased : Nat, (biased : Int) = e + 1075 :=
    ⟨(e + 1075).toNat, by have := h.least; omega⟩
  have hbiased : (e + (Format.binary64.exponentBias : Nat) + (52 : Nat)).toNat = biased := by
    have hbias : Format.binary64.exponentBias = 1023 := rfl
    omega
  have hlt : biased < 2047 := by
    have := h.most
    omega
  have hpos : 0 < biased := by
    have := h.least
    omega
  have hroom : ¬ 2 ^ Format.binary64.exponentBits ≤ biased + 1 := by
    rw [show 2 ^ Format.binary64.exponentBits = 2048 from rfl]
    omega
  have hpack : UnpackedFloat.pack Format.binary64 (.finite s m e h.pos)
      = packComponents Format.binary64 s (BitVec.ofNat 11 biased) (BitVec.ofNat 52 m) := by
    rw [UnpackedFloat.pack, hbiased, if_neg hroom, if_pos hlog]
  have htoNat : (BitVec.ofNat 11 biased).toNat = biased := by
    rw [BitVec.toNat_ofNat, Nat.mod_eq_of_lt (by omega)]
  have hones : BitVec.ofNat 11 biased ≠ -1#11 := fun he =>
    Nat.ne_of_lt hlt (htoNat.symm.trans (congrArg BitVec.toNat he))
  have hzero : BitVec.ofNat 11 biased ≠ 0#11 := fun he =>
    Nat.ne_of_gt hpos (htoNat.symm.trans (congrArg BitVec.toNat he))
  have hmant : (1#1 ++ BitVec.ofNat 52 m).toNat = m := by
    have hlow := h.low
    have hhigh := h.high
    rw [toNat_implicit, BitVec.toNat_ofNat]
    omega
  have hexp : ((BitVec.ofNat 11 biased).toNat : Int)
      - (Format.binary64.exponentBias + Format.binary64.mantissaBitsWithoutImplicit) = e := by
    rw [htoNat, hb]
    show e + 1075 - 1075 = e
    omega
  show UnpackedFloat.unpack Format.binary64 (UnpackedFloat.pack Format.binary64 _) = _
  rw [hpack, UnpackedFloat.unpack]
  simp only [unpackExponent_packComponents, unpackMantissa_packComponents,
    unpackSign_packComponents]
  rw [if_neg hones, if_neg hzero]
  simp only [hmant, hexp]

theorem unpack_neg {x : Float} {s : Sign} (h : Normal m e)
    (hx : x.toModel.unpack = .finite s m e h.pos) :
    (Float.neg x).toModel.unpack = .finite (-s) m e h.pos := by
  show (Float.Model.pack (UnpackedFloat.neg x.toModel.unpack)).unpack = _
  rw [hx, UnpackedFloat.neg]
  exact unpack_pack h

/-! ## Rounding what needs none -/

/-- Shifting out zeros loses nothing. -/
theorem shiftRight_exact (k : Nat) : ∀ m : Nat,
    ExtendedMantissa.ofMantissaAndAccuracy (m * 2 ^ k) .exact >>> k = ⟨m, false, false⟩ := by
  induction k with
  | zero => exact fun m => by rw [Nat.pow_zero, Nat.mul_one]; rfl
  | succ k ih =>
    intro m
    have hstep : ExtendedMantissa.ofMantissaAndAccuracy (m * 2 ^ (k + 1)) .exact >>> (k + 1)
        = (ExtendedMantissa.ofMantissaAndAccuracy (m * 2 * 2 ^ k) .exact >>> k).shiftRightOne := by
      rw [Nat.pow_succ', ← Nat.mul_assoc]
      rfl
    rw [hstep, ih, ExtendedMantissa.shiftRightOne]
    simp

/-- Trailing zeros do not move the leading digit. -/
theorem totalExponent_scale {m : Nat} (hm : m ≠ 0) (e : Int) (k : Nat) :
    totalExponent (m * 2 ^ k) (e - k) = totalExponent m e := by
  have hlog : (m * 2 ^ k).log2 = m.log2 + k := by
    induction k with
    | zero => rw [Nat.pow_zero, Nat.mul_one, Nat.add_zero]
    | succ k ih =>
      have hne : m * 2 ^ k ≠ 0 := Nat.mul_ne_zero hm (Nat.pos_iff_ne_zero.1 (Nat.two_pow_pos k))
      rw [Nat.pow_succ, ← Nat.mul_assoc, Nat.mul_comm, Nat.log2_two_mul hne, ih, Nat.add_assoc]
  rw [totalExponent, totalExponent, hlog]
  omega

theorem targetExponent_normal (h : Normal m e) (k : Nat) :
    Format.binary64.targetExponent (totalExponent (m * 2 ^ k) (e - k)) = e := by
  have hleast := h.least
  rw [totalExponent_scale (Nat.pos_iff_ne_zero.1 h.pos), totalExponent, h.log2,
    Format.targetExponent]
  show max ((52 : Nat) + 1 + e - 53) (-1074) = e
  omega

theorem shiftToTargetExponent_normal (h : Normal m e) (k : Nat) :
    shiftToTargetExponent Format.binary64 (m * 2 ^ k) (e - k) .exact
      = (⟨m, false, false⟩, e) := by
  have hshift : (e - (e - (k : Int))).toNat = k := by omega
  have hback : e - (k : Int) + (k : Int) = e := by omega
  rw [shiftToTargetExponent, targetExponent_normal h, shiftToExponent, hshift, shiftRight_exact,
    hback]

/-- **A number that is normal but for trailing zeros is rounded to itself.** -/
theorem roundWithAccuracy_normal (h : Normal m e) (s : Sign) (k : Nat) :
    roundWithAccuracy Format.binary64 s (m * 2 ^ k) (e - k) .exact = .finite s m e h.pos := by
  have hrounded : ExtendedMantissa.roundedMantissa ⟨m, false, false⟩ = m := rfl
  have hagain := shiftToTargetExponent_normal h 0
  rw [Nat.pow_zero, Nat.mul_one, Int.natCast_zero, Int.sub_zero] at hagain
  rw [roundWithAccuracy, shiftToTargetExponent_normal h]
  simp only [hrounded, hagain]
  rw [dif_neg (Nat.pos_iff_ne_zero.1 h.pos)]

end Decimal
end ScriptPool
