import ScriptPool.Proofs.Decimal.Digits
import ScriptPool.Proofs.Decimal.Equal
import ScriptPool.Proofs.Decimal.Shortest
import ScriptPool.Toml.Grammar
import ScriptPool.Toml.Writer

/-!
# Numbers in TOML

A number is what is left when a value is not anything else, and the first thing that it could be is
a date.  So before the digits of a number are read, they have been looked at as a date, as a number
in another base and as one of the words for infinity, and none of these begins with digits that are
followed by more digits, a point or the end of the line.

## What is here

* `readTerm_decimal` — decimal digits are read as a number.
* `decimalNumber_integer`, `decimalNumber_float` — as which one.
* `readTerm_integer`, `readTerm_float` — **what was written for a number is read as that number.**
-/

set_option autoImplicit false

namespace ScriptPool
namespace Toml

open Decimal

/-! ## Runs of digits -/

/-- A run of digits ends where no digit follows. -/
theorem digitRun_append {isDigit : Char → Bool} {digits : List Char} {c : Char} {rest : List Char}
    (hne : digits ≠ []) (hdigits : ∀ d ∈ digits, isDigit d = true) (hunder : isDigit '_' = false)
    (hc : isDigit c = false) (hc' : c ≠ '_') :
    ∀ {fuel : Nat}, digits.length ≤ fuel →
      digitRun isDigit fuel (digits ++ c :: rest) = some (digits, c :: rest) := by
  induction digits with
  | nil => exact absurd rfl hne
  | cons d digits ih =>
    intro fuel hfuel
    obtain ⟨fuel, rfl⟩ : ∃ k, fuel = k + 1 := ⟨fuel - 1, by rw [List.length_cons] at hfuel; omega⟩
    have hd := hdigits d List.mem_cons_self
    cases digits with
    | nil =>
      show digitRun isDigit (fuel + 1) (d :: c :: rest) = _
      rw [digitRun, if_pos hd, if_neg (by rw [hc]; exact Bool.false_ne_true)]
      exact hc'
    | cons d' digits =>
      have hd' := hdigits d' (List.mem_cons_of_mem d List.mem_cons_self)
      have hrest := ih (List.cons_ne_nil d' digits)
        (fun e he => hdigits e (List.mem_cons_of_mem d he)) (Nat.le_of_succ_le_succ hfuel)
      show digitRun isDigit (fuel + 1) (d :: d' :: (digits ++ c :: rest)) = _
      rw [digitRun, if_pos hd, if_pos hd']
      · change (digitRun isDigit fuel (d' :: digits ++ c :: rest)).map _ = _
        rw [hrest]
        rfl
      · rintro rfl
        rw [hunder] at hd'
        cases hd'

theorem hexDigit?_of_isDigit {c : Char} (h : c.isDigit = true) :
    hexDigit? c = some (c.toNat - '0'.toNat) := by
  rw [hexDigit?, if_pos h]

theorem digitsValue_eq {digits : List Char} (h : ∀ d ∈ digits, d.isDigit = true) :
    digitsValue 10 digits = Nat.ofDigitChars 10 digits 0 := by
  have hfold : ∀ (digits : List Char) (n : Nat), (∀ d ∈ digits, d.isDigit = true) →
      digits.foldl (fun n c => 10 * n + (hexDigit? c).getD 0) n = Nat.ofDigitChars 10 digits n := by
    intro digits
    induction digits with
    | nil => exact fun n _ => Nat.ofDigitChars_nil.symm
    | cons d digits ih =>
      intro n h
      rw [List.foldl_cons, hexDigit?_of_isDigit (h d List.mem_cons_self),
        ih _ fun e he => h e (List.mem_cons_of_mem d he), Nat.ofDigitChars_cons]
      rfl
  exact hfold digits 0 h

/-! ## What a number is not -/

section Numerals

variable {digits places : List Char} {c : Char} {rest : List Char}

/-- The text of a minus sign. -/
def minus (neg : Bool) : List Char := if neg then ['-'] else []

/-- A fixed number of digits ends among the digits that are there. -/
theorem exists_of_fixedDigits {n lo hi v : Nat} {r : List Char} (hn : n ≠ 0)
    (hdigits : ∀ d ∈ digits, d.isDigit = true) (hc : c.isDigit = false)
    (h : fixedDigits n lo hi (digits ++ c :: rest) = some (v, r)) :
    digits ≠ [] ∧ ∃ d r', r = d :: r' ∧ (d.isDigit = true ∨ d = c) := by
  rw [fixedDigits] at h
  dsimp only at h
  split at h
  · rename_i htake
    obtain ⟨hlength, hall⟩ := Bool.and_eq_true_iff.1 htake
    have hlength := of_decide_eq_true hlength
    have hle : n ≤ digits.length := by
      by_contra hlt
      obtain ⟨k, hk⟩ : ∃ k, n = digits.length + (k + 1) := ⟨n - digits.length - 1, by omega⟩
      have hmem : c ∈ (digits ++ c :: rest).take n := by
        rw [hk, List.take_length_add_append, List.take_succ_cons]
        exact List.mem_append_right _ List.mem_cons_self
      rw [List.all_eq_true.1 hall c hmem] at hc
      cases hc
    split at h
    · have hr : r = digits.drop n ++ c :: rest := by
        rw [← List.drop_append_of_le_length hle]
        exact (congrArg Prod.snd (Option.some.inj h)).symm
      refine ⟨?_, ?_⟩
      · rintro rfl
        exact hn (Nat.le_zero.1 hle)
      · cases hdrop : digits.drop n with
        | nil => exact ⟨c, rest, by rw [hr, hdrop, List.nil_append], .inr rfl⟩
        | cons d more =>
          refine ⟨d, more ++ c :: rest, by rw [hr, hdrop, List.cons_append], .inl ?_⟩
          exact hdigits d (List.mem_of_mem_drop (hdrop ▸ List.mem_cons_self))
    · cases h
  · cases h

theorem char_eq_none {d e : Char} {r : List Char} (h : d ≠ e) : char e (d :: r) = none := by
  rw [char, if_neg fun he => h he.symm]

/-- Digits do not begin a date or a time, unless a dash or a colon follows them. -/
theorem datetime_eq_none (hdigits : ∀ d ∈ digits, d.isDigit = true) (hc : c.isDigit = false)
    (hsep : digits ≠ [] → c ≠ '-' ∧ c ≠ ':') : datetime (digits ++ c :: rest) = none := by
  have hnext : ∀ {n lo hi v : Nat} {r : List Char} {e : Char}, n ≠ 0 → (e = '-' ∨ e = ':') →
      fixedDigits n lo hi (digits ++ c :: rest) = some (v, r) → char e r = none := by
    intro n lo hi v r e hn he h
    obtain ⟨hne, d, r', rfl, hd⟩ := exists_of_fixedDigits hn hdigits hc h
    refine char_eq_none ?_
    rintro rfl
    rcases he with rfl | rfl
    · exact hd.elim (fun hd => by cases hd) fun hd => (hsep hne).1 hd.symm
    · exact hd.elim (fun hd => by cases hd) fun hd => (hsep hne).2 hd.symm
  have hdate : date (digits ++ c :: rest) = none := by
    rw [date]
    cases h : fixedDigits 4 0 9999 (digits ++ c :: rest) with
    | none => rfl
    | some year =>
      show (char '-' year.2).bind _ = none
      rw [hnext (by decide) (.inl rfl) h]
      rfl
  have htime : time (digits ++ c :: rest) = none := by
    rw [time]
    cases h : fixedDigits 2 0 23 (digits ++ c :: rest) with
    | none => rfl
    | some hour =>
      show (char ':' hour.2).bind _ = none
      rw [hnext (by decide) (.inr rfl) h]
      rfl
  rw [datetime, hdate, htime]
  rfl

theorem ne_of_isDigit {d e : Char} (hd : d.isDigit = true) (he : e.isDigit = false) : d ≠ e := by
  rintro rfl
  rw [hd] at he
  cases he

theorem basedInteger_eq_none {d e : Char} {r : List Char}
    (h : d = '0' → e ≠ 'x' ∧ e ≠ 'o' ∧ e ≠ 'b') : basedInteger (d :: e :: r) = none := by
  rw [basedInteger.eq_def]
  split
  · rename_i heq
    obtain ⟨hd, he, -⟩ : d = '0' ∧ e = 'x' ∧ _ := by simpa using heq
    exact absurd he (h hd).1
  · rename_i heq
    obtain ⟨hd, he, -⟩ : d = '0' ∧ e = 'o' ∧ _ := by simpa using heq
    exact absurd he (h hd).2.1
  · rename_i heq
    obtain ⟨hd, he, -⟩ : d = '0' ∧ e = 'b' ∧ _ := by simpa using heq
    exact absurd he (h hd).2.2
  · rfl

theorem sign_minus (neg : Bool) {d : Char} {r : List Char} (h : d ≠ '-' ∧ d ≠ '+') :
    sign (minus neg ++ d :: r) = (neg, d :: r) := by
  cases neg with
  | true => rfl
  | false =>
    show sign (d :: r) = _
    rw [sign.eq_def]
    split
    · rename_i heq
      exact absurd (List.cons.inj heq).1 h.1
    · rename_i heq
      exact absurd (List.cons.inj heq).1 h.2
    · rfl

theorem specialFloat_eq_none (neg : Bool) {d : Char} {r : List Char} (h : d.isDigit = true) :
    specialFloat (minus neg ++ d :: r) = none := by
  have hd : d ≠ '-' ∧ d ≠ '+' := ⟨ne_of_isDigit h rfl, ne_of_isDigit h rfl⟩
  rw [specialFloat, sign_minus neg hd]
  dsimp only
  split
  · rename_i heq
    rw [(List.cons.inj heq).1] at h
    cases h
  · rename_i heq
    rw [(List.cons.inj heq).1] at h
    cases h
  · rfl

/-! ## Reading a number -/

theorem sign_whole (neg : Bool) {whole : List Char} (h : IsWhole whole) (r : List Char) :
    sign (minus neg ++ (whole ++ r)) = (neg, whole ++ r) := by
  cases whole with
  | nil => exact absurd rfl h.ne_nil
  | cons d ds =>
    have hd := h.digits d List.mem_cons_self
    exact sign_minus neg ⟨ne_of_isDigit hd rfl, ne_of_isDigit hd rfl⟩

theorem leading_eq_false {whole : List Char} (h : IsWhole whole) :
    (decide (whole.head? = some '0') && decide (whole.length ≠ 1)) = false := by
  by_cases hhead : whole.head? = some '0'
  · rw [decide_eq_false (not_not_intro (h.leading hhead)), Bool.and_false]
  · rw [decide_eq_false hhead, Bool.false_and]

theorem decimalNumber_integer (neg : Bool) {whole : List Char} (h : IsWhole whole) :
    decimalNumber (minus neg ++ (whole ++ '\n' :: rest))
      = if inRange (signed neg (Nat.ofDigitChars 10 whole 0)) then
          some (.integer (signed neg (Nat.ofDigitChars 10 whole 0)), '\n' :: rest)
        else none := by
  have hrun : digitRun Char.isDigit ((minus neg ++ (whole ++ '\n' :: rest)).length + 1)
      (whole ++ '\n' :: rest) = some (whole, '\n' :: rest) :=
    digitRun_append h.ne_nil h.digits rfl rfl (by decide)
      (by rw [List.length_append, List.length_append]; omega)
  rw [decimalNumber]
  simp only [sign_whole neg h, hrun, Option.bind_eq_bind, Option.bind_some, leading_eq_false h,
    Bool.false_eq_true, if_false, List.append_nil, List.isEmpty_nil, Bool.not_true]
  rw [digitsValue_eq h.digits]
  rfl

/-- What is written with a point is a float. -/
theorem decimalNumber_float (neg : Bool) {whole places : List Char} {magnitude : Float}
    (h : IsWhole whole) (hne : places ≠ []) (hplaces : ∀ c ∈ places, c.isDigit = true)
    (hlength : places.length ≤ 2000)
    (hmag : nearestFloat (Nat.ofDigitChars 10 (whole ++ places) 0) (-places.length) = magnitude)
    (hinf : magnitude.isInf = false) :
    decimalNumber (minus neg ++ (whole ++ '.' :: (places ++ '\n' :: rest)))
      = some (.float (if neg then -magnitude else magnitude), '\n' :: rest) := by
  obtain ⟨fuel, hfuel⟩ : ∃ fuel, fuel
      = (minus neg ++ (whole ++ '.' :: (places ++ '\n' :: rest))).length + 1 := ⟨_, rfl⟩
  simp only [List.length_append, List.length_cons] at hfuel
  have hrun : digitRun Char.isDigit fuel (whole ++ '.' :: (places ++ '\n' :: rest))
      = some (whole, '.' :: (places ++ '\n' :: rest)) :=
    digitRun_append h.ne_nil h.digits rfl rfl (by decide) (by omega)
  have hrun' : digitRun Char.isDigit fuel (places ++ '\n' :: rest)
      = some (places, '\n' :: rest) :=
    digitRun_append hne hplaces rfl rfl (by decide) (by omega)
  have hdigits : ∀ c ∈ whole ++ places, c.isDigit = true := fun c hc =>
    (List.mem_append.1 hc).elim (h.digits c) (hplaces c)
  have hexp : max ((0 : Int) - places.length) (-2000 - whole.length) = -places.length := by omega
  have hempty : (!places.isEmpty) = true := by
    rw [Bool.not_eq_true', List.isEmpty_eq_false_iff]
    exact hne
  have hletter : (decide ('\n' = 'e') || decide ('\n' = 'E')) = false := rfl
  rw [decimalNumber]
  simp only [List.length_append, List.length_cons, ← hfuel]
  simp only [sign_whole neg h, hrun, hrun', Option.bind_eq_bind, Option.bind_some,
    leading_eq_false h, Bool.false_eq_true, if_false, hletter, hempty, if_true, hexp,
    digitsValue_eq hdigits, hmag, hinf, Bool.false_and]

/-- A value that does not begin like anything else is a number. -/
theorem readTerm_number {fuel depth : Nat} {d : Char} {cs : List Char}
    (h : d ∉ ['"', '\'', '[', '\x7b', 't', 'f']) (hdate : datetime (d :: cs) = none)
    (hbased : basedInteger (d :: cs) = none) :
    readTerm (fuel + 1) depth (d :: cs)
      = match specialFloat (d :: cs) with
        | some result => some result
        | none => decimalNumber (d :: cs) := by
  have hne : ∀ {e : Char} {r : List Char}, e ∈ ['"', '\'', '[', '\x7b', 't', 'f'] →
      d :: cs ≠ e :: r := fun he heq => h ((List.cons.inj heq).1 ▸ he)
  rw [readTerm]
  · cases specialFloat (d :: cs) with
    | none => rw [hdate, hbased]
    | some result => rw [hdate, hbased]
  all_goals exact fun r heq => hne (by decide) heq

/-- A number in decimal digits is not taken for anything else. -/
theorem readTerm_decimal {fuel depth : Nat} (neg : Bool) {whole : List Char} (h : IsWhole whole)
    (hc : c = '\n' ∨ c = '.') :
    readTerm (fuel + 1) depth (minus neg ++ (whole ++ c :: rest))
      = decimalNumber (minus neg ++ (whole ++ c :: rest)) := by
  obtain ⟨d, ds, rfl⟩ := List.exists_cons_of_ne_nil h.ne_nil
  have hd := h.digits d List.mem_cons_self
  have hspecial : specialFloat (minus neg ++ d :: (ds ++ c :: rest)) = none :=
    specialFloat_eq_none neg hd
  have hcdigit : c.isDigit = false := by
    rcases hc with rfl | rfl <;> rfl
  cases neg with
  | true =>
    have hdate : datetime ([] ++ '-' :: (d :: ds ++ c :: rest)) = none :=
      datetime_eq_none (fun _ h => absurd h List.not_mem_nil) rfl fun h => absurd rfl h
    have hbased : basedInteger ('-' :: (d :: ds ++ c :: rest)) = none :=
      basedInteger_eq_none fun h => absurd h (by decide)
    change readTerm (fuel + 1) depth ('-' :: (d :: ds ++ c :: rest))
      = decimalNumber ('-' :: (d :: ds ++ c :: rest))
    change specialFloat ('-' :: (d :: ds ++ c :: rest)) = none at hspecial
    rw [readTerm_number (by decide) hdate hbased, hspecial]
  | false =>
    have hdate : datetime (d :: ds ++ c :: rest) = none :=
      datetime_eq_none h.digits hcdigit fun _ => by rcases hc with rfl | rfl <;> decide
    rw [List.cons_append] at hdate
    have hbased : basedInteger (d :: (ds ++ c :: rest)) = none := by
      cases ds with
      | nil => exact basedInteger_eq_none fun _ => by rcases hc with rfl | rfl <;> decide
      | cons e ds =>
        have he := h.digits e (List.mem_cons_of_mem d List.mem_cons_self)
        exact basedInteger_eq_none fun _ =>
          ⟨ne_of_isDigit he rfl, ne_of_isDigit he rfl, ne_of_isDigit he rfl⟩
    have hmem : d ∉ ['"', '\'', '[', '\x7b', 't', 'f'] := by
      intro hmem
      simp only [List.mem_cons, List.not_mem_nil, or_false] at hmem
      rcases hmem with rfl | rfl | rfl | rfl | rfl | rfl <;> cases hd
    change readTerm (fuel + 1) depth (d :: (ds ++ c :: rest))
      = decimalNumber (d :: (ds ++ c :: rest))
    change specialFloat (d :: (ds ++ c :: rest)) = none at hspecial
    rw [readTerm_number hmem hdate hbased, hspecial]

end Numerals

/-! ## What was written -/

section Written

variable {fuel depth : Nat} {rest : List Char}

theorem toList_toString_int (n : Int) :
    (toString n).toList = minus (decide (n < 0)) ++ Nat.toDigits 10 n.natAbs := by
  cases n with
  | ofNat k =>
    have hneg : decide (Int.ofNat k < 0) = false :=
      decide_eq_false (Int.not_lt.2 (Int.natCast_nonneg k))
    rw [hneg]
    exact Nat.toList_repr
  | negSucc k =>
    rw [decide_eq_true (Int.negSucc_lt_zero k)]
    show ("-" ++ (k + 1).repr).toList = _
    rw [String.toList_append, Nat.toList_repr]
    rfl

/-- **An integer is read back.** -/
theorem readTerm_integer {n : Int} (h : inRange n = true) :
    readTerm (fuel + 1) depth ((toString n).toList ++ '\n' :: rest)
      = some (.integer n, '\n' :: rest) := by
  have hsigned : signed (decide (n < 0)) n.natAbs = n := by
    rw [signed]
    split
    · rename_i hneg
      have := of_decide_eq_true hneg
      omega
    · rename_i hneg
      have := of_decide_eq_false (Bool.not_eq_true _ ▸ hneg)
      omega
  rw [toList_toString_int, List.append_assoc, readTerm_decimal _ (isWhole_toDigits _) (.inl rfl),
    decimalNumber_integer _ (isWhole_toDigits _), Nat.ofDigitChars_ten_toDigits, hsigned, if_pos h]

/-- The float of a magnitude and a sign. -/
theorem eq_of_magnitude {x y : Float} {neg : Bool} {m : Nat} {q : Int}
    (hx : Binary.read x = .finite neg m q) (hy : Binary.read y = .finite false m q) :
    (if neg then -y else y) = x := by
  have hread : Binary.read (if neg then -y else y) = .finite neg m q := by
    cases neg with
    | false => exact hy
    | true =>
      show Binary.read (Float.neg y) = _
      rw [read_eq]
      obtain ⟨rfl, s, hs⟩ | ⟨hm, hs⟩ := unpack_of_read hy
      · rw [read_eq, hs, Binary.ofUnpacked] at hy
        have hunpack : (Float.neg y).toModel.unpack = .zero (-s) := by
          show (Float.Model.pack (Float.Model.UnpackedFloat.neg y.toModel.unpack)).unpack = _
          rw [hs]
          cases s <;> rfl
        rw [hunpack]
        cases s <;> cases hy
        rfl
      · rw [unpack_neg_of_canonical (canonical_of_read hy hm.ne') hs]
        rfl
  exact eq_of_read (hread.trans hx.symm) (by rw [hread]; exact fun h => by cases h)

/-- The decimal that is written for a finite float. -/
def magnitude (m : Nat) (q : Int) : Scaled := if m = 0 then ⟨0, 0⟩ else shortest m q

/-- The digits of a float and their places are read as the magnitude of the float. -/
theorem read_nearestFloat {x : Float} {neg : Bool} {m : Nat} {q : Int} {whole places : List Char}
    (hx : Binary.read x = .finite neg m q) (hfixed : Fixed (magnitude m q) whole places) :
    Binary.read (nearestFloat (Nat.ofDigitChars 10 (whole ++ places) 0) (-places.length))
      = .finite false m q := by
  have hplaces : places.length ≠ 0 := fun h0 => hfixed.ne_nil (List.eq_nil_of_length_eq_zero h0)
  have hnearest : ∀ d : Nat,
      nearestFloat d (-places.length) = Float.ofScientific d true places.length := by
    intro d
    rw [nearestFloat, if_neg (by omega), Int.neg_neg, Int.toNat_natCast]
  have hvalue := hfixed.value
  have hlength := hfixed.length
  generalize Nat.ofDigitChars 10 (whole ++ places) 0 = d at hvalue ⊢
  rw [hnearest]
  by_cases h0 : m = 0
  · subst h0
    obtain ⟨-, s, hs⟩ | ⟨hm, -⟩ := unpack_of_read hx
    · rw [read_eq, hs] at hx
      cases hx
      have hd : d = 0 := by
        rw [magnitude, if_pos rfl, Nat.cast_zero, zero_mul, div_eq_zero_iff] at hvalue
        exact Nat.cast_eq_zero.1 (hvalue.resolve_right (pow_ne_zero _ (by norm_num)))
      have hone : places.length = 1 := by
        rw [magnitude, if_pos rfl] at hlength
        dsimp only at hlength
        omega
      rw [hd, hone]
      decide +kernel
    · exact absurd hm (Nat.lt_irrefl 0)
  · have hcanonical := canonical_of_read hx h0
    obtain ⟨haround, hpos, hleast⟩ := around_shortest hcanonical
    rw [magnitude, if_neg h0] at hvalue hlength
    rw [← hvalue] at haround
    have hd : d ≠ 0 := by
      rintro rfl
      have hzero := haround.pos hcanonical
      rw [Nat.cast_zero, zero_div] at hzero
      exact lt_irrefl 0 hzero
    rw [read_eq, ofScientific_of_around hcanonical hd hplaces (by omega) haround]
    rfl

theorem magnitude_bounds {x : Float} {neg : Bool} {m : Nat} {q : Int}
    (hx : Binary.read x = .finite neg m q) :
    ((magnitude m q).digits = 0 → (magnitude m q).exponent = 0)
      ∧ -345 ≤ (magnitude m q).exponent := by
  rw [magnitude]
  split
  · exact ⟨fun _ => rfl, by decide⟩
  · rename_i h0
    obtain ⟨-, hpos, hleast⟩ := around_shortest (canonical_of_read hx h0)
    exact ⟨fun hd => absurd hd hpos.ne', hleast⟩

theorem isInf_of_read {x : Float} {neg : Bool} {m : Nat} {q : Int}
    (hx : Binary.read x = .finite neg m q) : x.isInf = false := by
  show x.toModel.unpack.isInf = false
  rw [read_eq] at hx
  cases hu : x.toModel.unpack with
  | infinity s =>
    rw [hu] at hx
    cases hx
  | _ => rfl

theorem readTerm_infinity (neg : Bool) :
    readTerm (fuel + 1) depth (minus neg ++ 'i' :: 'n' :: 'f' :: '\n' :: rest)
      = some (.float (if neg then -(1.0 / 0.0) else 1.0 / 0.0), '\n' :: rest) := by
  have hdate : ∀ {c : Char} {r : List Char}, c.isDigit = false → datetime ([] ++ c :: r) = none :=
    fun hc => datetime_eq_none (fun _ h => absurd h List.not_mem_nil) hc fun h => absurd rfl h
  have hbased : ∀ {d e : Char} {r : List Char}, d ≠ '0' → basedInteger (d :: e :: r) = none :=
    fun hd => basedInteger_eq_none fun h => absurd h hd
  cases neg with
  | true => exact readTerm_number (by decide) (hdate rfl) (hbased (by decide))
  | false => exact readTerm_number (by decide) (hdate rfl) (hbased (by decide))

/-- **A float is read back.** -/
theorem readTerm_float {x : Float} (h : x.isNaN = false) :
    readTerm (fuel + 1) depth ((numberLayout.write x).toList ++ '\n' :: rest)
      = some (.float x, '\n' :: rest) := by
  have hminus : ∀ neg : Bool, (if neg then "-" else "").toList = minus neg := by
    intro neg
    cases neg <;> rfl
  rw [Layout.write]
  cases hx : Binary.read x with
  | nan =>
    change x.toModel.unpack.isNaN = false at h
    rw [read_eq] at hx
    cases hu : x.toModel.unpack <;> rw [hu] at hx h <;> cases hx
    cases h
  | infinite neg =>
    have hread : Binary.read (if neg then -(1.0 / 0.0) else 1.0 / 0.0) = .infinite neg := by
      cases neg <;> decide +kernel
    have heq : (if neg then -(1.0 / 0.0) else 1.0 / 0.0) = x :=
      eq_of_read (hread.trans hx.symm) (by rw [hread]; exact fun h => by cases h)
    have htext : ((if neg then "-" else "") ++ "inf").toList ++ '\n' :: rest
        = minus neg ++ 'i' :: 'n' :: 'f' :: '\n' :: rest := by
      rw [String.toList_append, hminus, List.append_assoc]
      rfl
    refine (congrArg (readTerm (fuel + 1) depth) htext).trans ?_
    rw [readTerm_infinity, heq]
  | finite neg m q =>
    obtain ⟨hzero, hleast⟩ := magnitude_bounds hx
    obtain ⟨whole, places, htext, hfixed⟩ := exists_fixed hzero
    have hread := read_nearestFloat hx hfixed
    have htext' : ((if neg then "-" else "") ++ (magnitude m q).positional true).toList
        ++ '\n' :: rest = minus neg ++ (whole ++ '.' :: (places ++ '\n' :: rest)) := by
      rw [String.toList_append, hminus, htext, List.append_assoc, List.append_assoc,
        List.cons_append]
    refine (congrArg (readTerm (fuel + 1) depth) htext').trans ?_
    rw [readTerm_decimal neg hfixed.isWhole (.inr rfl),
      decimalNumber_float neg hfixed.isWhole hfixed.ne_nil hfixed.digits ?_ rfl ?_,
      eq_of_magnitude hx hread]
    · have hlength := hfixed.length
      omega
    · exact isInf_of_read hread

end Written

end Toml
end ScriptPool
