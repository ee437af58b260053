import ScriptPool.Proofs.Decimal.Normal

/-!
# Integral floats

A float that stands for an integer is that integer as a float again.  The two need not be the same
float, since both zeros stand for `0`, but they are equal as numbers.

## What is here

* `unpack_ofNat` — the float of a natural number that has a mantissa and an exponent is that
  mantissa and exponent.  The two ways in which such floats are made, below `2^53` and from there
  on, come to the same.
* `ofInt_beq` — an integral float equals the float of its integer.
* `beq_self` — equality of numbers is reflexive but for what is not a number.
* `integer?_ofInt` — an integer below `2^53` in magnitude is what its float stands for.
-/

set_option autoImplicit false

namespace ScriptPool
namespace Decimal

open Float.Model Float.Model.UnpackedFloat

/-! ## Mantissas that stand for integers -/

/-- The integer and the mantissa differ by trailing zeros, of the one or of the other. -/
theorem scaledInteger?_eq_some {m n : Nat} {q : Int} (h : scaledInteger? m q = some n) :
    ∃ k : Nat, (q = k ∧ n = m * 2 ^ k) ∨ (q = -((k + 1 : Nat) : Int) ∧ m = n * 2 ^ (k + 1)) := by
  cases q with
  | ofNat k => exact ⟨k, .inl ⟨rfl, (Option.some.inj h).symm⟩⟩
  | negSucc k =>
    rw [scaledInteger?] at h
    split at h
    · rename_i hmod
      refine ⟨k, .inr ⟨rfl, ?_⟩⟩
      rw [← Option.some.inj h, Nat.div_mul_cancel (Nat.dvd_of_mod_eq_zero hmod)]
    · cases h

theorem eq_zero_of_scaledInteger? {m : Nat} {q : Int} (h : scaledInteger? m q = some 0) :
    m = 0 := by
  obtain ⟨k, ⟨-, hm⟩ | ⟨-, hm⟩⟩ := scaledInteger?_eq_some h
  · exact (Nat.mul_eq_zero.1 hm.symm).resolve_right (Nat.pos_iff_ne_zero.1 (Nat.two_pow_pos k))
  · rw [hm, Nat.zero_mul]

/-- All integral floats but the zeros are normal. -/
theorem normal_of_scaledInteger? {x : Float} {neg : Bool} {m n : Nat} {q : Int}
    (h : Binary.read x = .finite neg m q) (hn : scaledInteger? m q = some n) (h0 : n ≠ 0) :
    Normal m q := by
  rcases normal_of_read h with hnormal | ⟨hm, rfl⟩
  · exact hnormal
  · exfalso
    obtain ⟨k, ⟨hk, -⟩ | ⟨hk, rfl⟩⟩ := scaledInteger?_eq_some hn
    · omega
    · have hpow : 2 ^ 52 ≤ 2 ^ (k + 1) := Nat.pow_le_pow_right Nat.zero_lt_two (by omega)
      have hle : 2 ^ (k + 1) ≤ n * 2 ^ (k + 1) := Nat.le_mul_of_pos_left _ (Nat.pos_of_ne_zero h0)
      omega

/-! ## Integers as floats

Two cases are apart: an integer of at most fifty-three bits is its own mantissa, and a larger one
has zeros at its end that go into the exponent. -/

/-- A natural number below `2^53` becomes a float without being rounded. -/
theorem unpack_toFloat {n k : Nat} (h : Normal (n * 2 ^ k) (-(k : Int))) (hlt : n < 2 ^ 53) :
    n.toUInt64.toFloat.toModel.unpack = .finite .positive (n * 2 ^ k) (-(k : Int)) h.pos := by
  have hpos : 0 < n := Nat.pos_of_mul_pos_right h.pos
  have hword : n.toUInt64.toNat = n := UInt64.toNat_ofNat_of_lt' (by rw [UInt64.size]; omega)
  have htarget : Format.binary64.targetExponent (totalExponent n 0) = -(k : Int) := by
    have ht := targetExponent_normal h 0
    rw [Nat.pow_zero, Nat.mul_one, Int.natCast_zero, Int.sub_zero, ← Int.zero_sub,
      totalExponent_scale (Nat.pos_iff_ne_zero.1 hpos)] at ht
    rw [ht, Int.zero_sub]
  have hround : UnpackedFloat.ofUInt64 Format.binary64 n.toUInt64
      = .finite .positive (n * 2 ^ k) (-(k : Int)) h.pos := by
    have hgt : compare (n : Int) 0 = .gt := Std.compare_eq_gt.2 (Int.natCast_pos.2 hpos)
    have hdecrease : decreaseExponent n 0 (-(k : Int)) = (n * 2 ^ k, -(k : Int)) := by
      have hk : (0 - -(k : Int)).toNat = k := by omega
      rw [decreaseExponent, hk, Nat.shiftLeft_eq, Int.zero_sub]
    have hexact := roundWithAccuracy_normal h .positive 0
    rw [Nat.pow_zero, Nat.mul_one, Int.natCast_zero, Int.sub_zero] at hexact
    rw [UnpackedFloat.ofUInt64, hword, UnpackedFloat.ofNat, UnpackedFloat.ofInt,
      UnpackedFloat.normalize, hgt]
    simp only [Int.toNat_natCast]
    rw [UnpackedFloat.round, htarget, hdecrease]
    exact hexact
  show (Float.Model.pack (UnpackedFloat.ofUInt64 Format.binary64 n.toUInt64)).unpack = _
  rw [hround]
  exact unpack_pack h

theorem unpack_one : (Float.ofBits 0x3FF0000000000000).toModel.unpack
    = .finite .positive (2 ^ 52) (-52) (by decide) := rfl

/-- A float times one is the float. -/
theorem unpack_mul_one {x : Float} {s : Sign} {m : Nat} {e : Int} (h : Normal m e)
    (hx : x.toModel.unpack = .finite s m e h.pos) :
    (x * Float.ofBits 0x3FF0000000000000).toModel.unpack = .finite s m e h.pos := by
  have hs : s * .positive = s := by cases s <;> rfl
  have hmul : UnpackedFloat.mul Format.binary64 (.finite s m e h.pos)
      (.finite .positive (2 ^ 52) (-52) (by decide)) = .finite s m e h.pos := by
    rw [UnpackedFloat.mul, hs]
    exact roundWithAccuracy_normal h s 52
  show (Float.Model.pack (UnpackedFloat.mul Format.binary64 x.toModel.unpack
    (Float.ofBits 0x3FF0000000000000).toModel.unpack)).unpack = _
  rw [hx, unpack_one, hmul]
  exact unpack_pack h

/-- A natural number from `2^53` on becomes a float by dropping trailing zeros. -/
theorem ofScientific_normal {m k : Nat} (h : Normal m k) :
    UnpackedFloat.ofScientific Format.binary64 (m * 2 ^ k) 0 = .finite .positive m k h.pos := by
  have hne : m * 2 ^ k ≠ 0 := Nat.mul_ne_zero (Nat.pos_iff_ne_zero.1 h.pos)
    (Nat.pos_iff_ne_zero.1 (Nat.two_pow_pos k))
  have hround := roundWithAccuracy_normal h .positive (k + 53)
  have hexp : (k : Int) - ((k + 53 : Nat) : Int) = -53 := by omega
  rw [hexp, Nat.pow_add, ← Nat.mul_assoc, ← Nat.shiftLeft_eq _ 53] at hround
  have hlow : ¬ (0 : Int) < -((2 ^ Format.binary64.exponentBits : Int) + (m * 2 ^ k).log2) := by
    rw [show (2 ^ Format.binary64.exponentBits : Int) = 2048 from rfl]
    omega
  rw [UnpackedFloat.ofScientific, dif_neg hne, if_neg (by decide), if_neg hlow,
    if_pos (Int.le_refl 0), UnpackedFloat.mul]
  have hten : 10 ^ (0 : Int).toNat = 1 := rfl
  have hbits : Format.binary64.mantissaBits = 53 := rfl
  have hsign : Sign.positive * Sign.positive = .positive := rfl
  have hback : -((53 : Nat) : Int) + 0 = -53 := rfl
  rw [hten, Nat.mul_one, hbits, hsign, hback, hround]

/-- **An integral float is the float of its integer**, up to the sign of zero. -/
theorem unpack_ofNat {n m : Nat} {e : Int} (h : Normal m e) (hn : scaledInteger? m e = some n) :
    (Float.ofNat n).toModel.unpack = .finite .positive m e h.pos := by
  have hofNat : Float.ofNat n = Float.ofScientific n false 0 := rfl
  rw [hofNat, Float.ofScientific]
  by_cases hlt : n < 2 ^ 53
  · rw [dif_pos ⟨hlt, Nat.zero_le _⟩]
    obtain ⟨k, rfl, rfl⟩ : ∃ k : Nat, m = n * 2 ^ k ∧ e = -(k : Int) := by
      obtain ⟨k, ⟨rfl, rfl⟩ | ⟨rfl, rfl⟩⟩ := scaledInteger?_eq_some hn
      · have hk : ¬ 0 < k := by
          intro hk
          have hle : m * 2 ^ 1 ≤ m * 2 ^ k :=
            Nat.mul_le_mul_left m (Nat.pow_le_pow_right Nat.zero_lt_two hk)
          have hlow := h.low
          omega
        obtain rfl := Nat.eq_zero_of_not_pos hk
        exact ⟨0, by rw [Nat.pow_zero, Nat.mul_one, Nat.mul_one], rfl⟩
      · exact ⟨k + 1, rfl, rfl⟩
    exact unpack_mul_one h (unpack_toFloat h hlt)
  · rw [dif_neg (fun hc => hlt hc.1)]
    obtain ⟨k, rfl, rfl⟩ : ∃ k : Nat, n = m * 2 ^ k ∧ e = k := by
      obtain ⟨k, ⟨rfl, rfl⟩ | ⟨rfl, rfl⟩⟩ := scaledInteger?_eq_some hn
      · exact ⟨k, rfl, rfl⟩
      · have hle : n ≤ n * 2 ^ (k + 1) := Nat.le_mul_of_pos_right n (Nat.two_pow_pos _)
        exact absurd (Nat.lt_of_le_of_lt hle h.high) hlt
    show (Float.Model.pack (UnpackedFloat.ofScientific Format.binary64 (m * 2 ^ k) 0)).unpack = _
    rw [ofScientific_normal h]
    exact unpack_pack h

/-! ## Comparing -/

theorem beq_eq (x y : Float) :
    (x == y) = (x.toModel.unpack.compare y.toModel.unpack == some .eq) := rfl

theorem compare_self (s : Sign) {m : Nat} {e : Int} (hm : 0 < m) :
    UnpackedFloat.compare (.finite s m e hm) (.finite s m e hm) = some .eq := by
  cases s <;> simp [UnpackedFloat.compare]

/-- A float that is a number equals itself. -/
theorem beq_self {x : Float} (h : x.isNaN = false) : (x == x) = true := by
  have hnan : x.toModel.unpack.isNaN = false := h
  rw [beq_eq]
  cases hx : x.toModel.unpack with
  | notANumber =>
    rw [hx] at hnan
    cases hnan
  | infinity s => cases s <;> rfl
  | zero s => cases s <;> rfl
  | finite s m e hm =>
    rw [compare_self]
    rfl

/-- What is not a number equals nothing. -/
theorem isNaN_of_beq {x y : Float} (h : (x == y) = true) : x.isNaN = false := by
  show x.toModel.unpack.isNaN = false
  rw [beq_eq] at h
  cases hx : x.toModel.unpack with
  | notANumber =>
    rw [hx] at h
    cases h
  | _ => rfl

/-- **An integral float equals the float of its integer.** -/
theorem ofInt_beq {x : Float} {n : Int} (h : integer? x = some n) :
    (Float.ofInt n == x) = true := by
  rw [integer?] at h
  split at h
  · rename_i neg m q hread
    obtain ⟨k, hk, rfl⟩ := Option.map_eq_some_iff.1 h
    by_cases h0 : k = 0
    · subst h0
      obtain rfl := eq_zero_of_scaledInteger? hk
      obtain ⟨-, s, hs⟩ | ⟨hpos, -⟩ := unpack_of_read hread
      rotate_left
      · exact absurd hpos (Nat.lt_irrefl 0)
      have hzero : Float.ofInt (signed neg 0) = Float.ofNat 0 := by cases neg <;> rfl
      have hunpack : (Float.ofNat 0).toModel.unpack = .zero .positive := rfl
      rw [hzero, beq_eq, hunpack, hs]
      rfl
    · have hnormal := normal_of_scaledInteger? hread hk h0
      obtain ⟨hm, -⟩ | ⟨hpos, hx⟩ := unpack_of_read hread
      · exact absurd hm (Nat.pos_iff_ne_zero.1 hnormal.pos)
      have hnat := unpack_ofNat hnormal hk
      cases neg with
      | false =>
        have hint : Float.ofInt (signed false k) = Float.ofNat k := rfl
        rw [hint, beq_eq, hnat, hx]
        simp [compare_self]
      | true =>
        obtain ⟨j, rfl⟩ := Nat.exists_eq_succ_of_ne_zero h0
        have hint : Float.ofInt (signed true (j + 1)) = Float.neg (Float.ofNat (j + 1)) := rfl
        rw [hint, beq_eq, unpack_neg hnormal hnat, hx]
        have hneg : -Sign.positive = .negative := rfl
        rw [hneg, if_pos rfl, compare_self]
        rfl
  · cases h

/-! ## Integers that are not rounded -/

/-- Zeros behind a mantissa that the exponent makes up for. -/
theorem scaledInteger?_shift (n k : Nat) : scaledInteger? (n * 2 ^ k) (-(k : Int)) = some n := by
  cases k with
  | zero =>
    show some (n * 2 ^ 0 * 2 ^ 0) = some n
    rw [Nat.pow_zero, Nat.mul_one, Nat.mul_one]
  | succ k =>
    show (if n * 2 ^ (k + 1) % 2 ^ (k + 1) = 0 then some (n * 2 ^ (k + 1) / 2 ^ (k + 1)) else none)
      = some n
    rw [Nat.mul_mod_left, if_pos rfl, Nat.mul_div_cancel _ (Nat.two_pow_pos _)]

/-- Natural numbers of fifty-three bits at most are normal, with as many zeros behind them as there
is room for. -/
theorem normal_shift {n : Nat} (h0 : n ≠ 0) (h : n < 2 ^ 53) :
    Normal (n * 2 ^ (52 - n.log2)) (-((52 - n.log2 : Nat) : Int)) := by
  have hlog : n.log2 ≤ 52 := Nat.le_of_lt_succ ((Nat.log2_lt h0).2 h)
  have hpow : 2 ^ n.log2 * 2 ^ (52 - n.log2) = 2 ^ 52 := by
    rw [← Nat.pow_add, Nat.add_sub_cancel' hlog]
  refine ⟨?_, ?_, by omega, by omega⟩
  · rw [← hpow]
    exact Nat.mul_le_mul_right _ (Nat.log2_self_le h0)
  · have hlt : n * 2 ^ (52 - n.log2) < 2 ^ (n.log2 + 1) * 2 ^ (52 - n.log2) :=
      Nat.mul_lt_mul_of_pos_right Nat.lt_log2_self (Nat.two_pow_pos _)
    rwa [Nat.pow_succ, Nat.mul_right_comm, hpow] at hlt

/-- **An integer below `2^53` in magnitude is what its float stands for.** -/
theorem integer?_ofInt {n : Int} (h : n.natAbs < 2 ^ 53) : integer? (Float.ofInt n) = some n := by
  have hread : ∀ (k : Nat) (x : Float) (neg : Bool), k ≠ 0 → k < 2 ^ 53 →
      (∀ hm : Normal (k * 2 ^ (52 - k.log2)) (-((52 - k.log2 : Nat) : Int)),
        x.toModel.unpack
          = .finite (if neg then .negative else .positive) _ (-((52 - k.log2 : Nat) : Int)) hm.pos) →
      integer? x = some (signed neg k) := by
    intro k x neg h0 hk hx
    rw [integer?, read_eq, hx (normal_shift h0 hk), Binary.ofUnpacked]
    dsimp only
    rw [scaledInteger?_shift]
    cases neg <;> rfl
  cases n with
  | ofNat k =>
    by_cases h0 : k = 0
    · subst h0
      decide +kernel
    · exact hread k _ false h0 h fun hm => unpack_ofNat hm (scaledInteger?_shift _ _)
  | negSucc k =>
    exact hread (k + 1) _ true (Nat.succ_ne_zero k) h fun hm =>
      unpack_neg hm (unpack_ofNat hm (scaledInteger?_shift _ _))

end Decimal
end ScriptPool
