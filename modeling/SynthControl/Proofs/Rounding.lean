import Mathlib
import SynthControl.Decimal.Numeral
import SynthControl.Decimal.Shortest

/-!
# Rounding to floats

A positive float owns the numbers that round to it.  Reading a number that a float owns gives the float.

* `Normalised` — the mantissas and exponents of finite floats;
* `Owns` — the numbers that round to a float, on the line of the rational numbers;
* `nearest_of_owns`, `ofScientific_of_owns` — **a number that a float owns is read as that float**;
* `Interval.contains_iff` — the search for the shortest digits looks for numbers that the float owns;
* `Spells`, `spells_ofFloat` — **a float is made of what its bits say**, and there is one that is not a number.

Mathlib is imported whole for `Float.ofBits_toBits`, which no smaller part of it brings along.
-/

namespace SynthControl.Decimal

/-- A mantissa of at most fifty-three bits, which has fewer only at the smallest exponent. -/
structure Normalised (m : Nat) (q : Int) : Prop where
  lt : m < 2 ^ 53
  ge : minExponent ≤ q
  le : q ≤ 971
  full : 2 ^ 52 ≤ m ∨ q = minExponent

/-- How far below the float `m * 2 ^ q` numbers round to it, in units of `2 ^ q`: half a unit, and half of that below
a power of two, where the floats are twice as close. -/
def margin (m : Nat) (q : Int) : ℚ := if m = 2 ^ 52 ∧ minExponent < q then 1 / 4 else 1 / 2

/-- A number rounds to the float `m * 2 ^ q`; an exact half goes to the even neighbour. -/
def Owns (m : Nat) (q : Int) (v : ℚ) : Prop :=
  if m % 2 = 0 then (m - margin m q) * 2 ^ q ≤ v ∧ v ≤ (m + 1 / 2) * 2 ^ q
  else (m - margin m q) * 2 ^ q < v ∧ v < (m + 1 / 2) * 2 ^ q

section

variable {m num den : Nat} {q e : Int} {v : ℚ}

theorem margin_pos : 0 < margin m q := by
  rw [margin]
  split <;> norm_num

theorem margin_le : margin m q ≤ 1 / 2 := by
  rw [margin]
  split <;> norm_num

theorem Owns.le (h : Owns m q v) : (m - margin m q) * 2 ^ q ≤ v ∧ v ≤ (m + 1 / 2) * 2 ^ q := by
  rw [Owns] at h
  split at h
  · exact h
  · exact ⟨h.1.le, h.2.le⟩

/-- A power with an integral exponent, in front of or behind a fraction bar. -/
theorem pow_toNat_div {b : ℚ} (hb : b ≠ 0) (e : Int) : b ^ e.toNat / b ^ (-e).toNat = b ^ e := by
  rw [← zpow_natCast b e.toNat, ← zpow_natCast b (-e).toNat, ← zpow_sub₀ hb]
  congr 1
  omega

/-! ### Rounding a quotient -/

/-- A quotient is rounded to the number that is not more than half a unit away. -/
theorem roundDiv_eq (hd : 0 < den) (hlow : (m : ℚ) - 1 / 2 ≤ num / den) (hhigh : (num / den : ℚ) ≤ m + 1 / 2)
    (hodd : m % 2 = 1 → (m : ℚ) - 1 / 2 < num / den ∧ (num / den : ℚ) < m + 1 / 2) : roundDiv num den = m := by
  have hd' : (0 : ℚ) < den := Nat.cast_pos.2 hd
  have hlow' : 2 * (m * den) ≤ 2 * num + den := by
    rw [le_div_iff₀ hd'] at hlow
    have hcast : (2 * (m * den) : ℚ) ≤ 2 * num + den := by linarith
    exact_mod_cast hcast
  have hhigh' : 2 * num ≤ 2 * (m * den) + den := by
    rw [div_le_iff₀ hd'] at hhigh
    have hcast : (2 * num : ℚ) ≤ 2 * (m * den) + den := by linarith
    exact_mod_cast hcast
  have hodd' : m % 2 = 1 → 2 * (m * den) < 2 * num + den ∧ 2 * num < 2 * (m * den) + den := by
    intro hm
    obtain ⟨h₁, h₂⟩ := hodd hm
    rw [lt_div_iff₀ hd'] at h₁
    rw [div_lt_iff₀ hd'] at h₂
    have hcast₁ : (2 * (m * den) : ℚ) < 2 * num + den := by linarith
    have hcast₂ : (2 * num : ℚ) < 2 * (m * den) + den := by linarith
    exact ⟨by exact_mod_cast hcast₁, by exact_mod_cast hcast₂⟩
  have hdiv := Nat.div_add_mod num den
  have hmod := Nat.mod_lt num hd
  rw [roundDiv]
  generalize num / den = k at hdiv ⊢
  generalize num % den = r at hdiv hmod ⊢
  -- the number is the integral part of the quotient or the one above it
  have hle : k ≤ m := by
    by_contra hlt
    have := Nat.mul_le_mul_right den (Nat.succ_le_of_lt (Nat.lt_of_not_le hlt))
    rw [Nat.succ_mul, Nat.mul_comm k] at this
    omega
  have hge : m ≤ k + 1 := by
    by_contra hlt
    have := Nat.mul_le_mul_right den (Nat.succ_le_of_lt (Nat.lt_of_not_le hlt))
    rw [Nat.succ_mul, Nat.succ_mul, Nat.mul_comm k] at this
    omega
  obtain rfl | rfl : m = k ∨ m = k + 1 := by omega
  · rw [Nat.mul_comm m] at hhigh' hlow' hodd'
    rw [if_neg]
    omega
  · rw [show (k + 1) * den = den * k + den by ring] at hhigh' hlow' hodd'
    rw [if_pos]
    omega

theorem roundAt_eq (hd : 0 < den) (hlow : (m : ℚ) - 1 / 2 ≤ num / den / 2 ^ e)
    (hhigh : (num / den / 2 ^ e : ℚ) ≤ m + 1 / 2)
    (hodd : m % 2 = 1 → (m : ℚ) - 1 / 2 < num / den / 2 ^ e ∧ (num / den / 2 ^ e : ℚ) < m + 1 / 2) :
    roundAt num den e = m := by
  rw [roundAt]
  split
  · next he =>
    have hunit : (num / den / 2 ^ e : ℚ) = num / ((den * Nat.pow 2 e.toNat : Nat) : ℚ) := by
      rw [Nat.pow_eq, Nat.cast_mul, Nat.cast_pow, ← div_div, Nat.cast_ofNat, ← zpow_natCast, Int.toNat_of_nonneg he]
    rw [hunit] at hlow hhigh hodd
    exact roundDiv_eq (Nat.mul_pos hd (Nat.pow_pos (by decide))) hlow hhigh hodd
  · next he =>
    have hunit : (num / den / 2 ^ e : ℚ) = ((num * Nat.pow 2 (-e).toNat : Nat) : ℚ) / den := by
      rw [Nat.pow_eq, Nat.cast_mul, Nat.cast_pow, Nat.cast_ofNat, ← zpow_natCast, Int.toNat_of_nonneg (by omega),
        zpow_neg]
      ring
    rw [hunit] at hlow hhigh hodd
    exact roundDiv_eq hd hlow hhigh hodd

/-! ### The exponent of a fraction -/

/-- The exponent is that of a mantissa of fifty-three bits, if it is not too small. -/
theorem exists_exponentFor (hn : 0 < num) (hd : 0 < den) :
    ∃ e₀ : Int, (2 : ℚ) ^ (e₀ + 52) ≤ num / den ∧ (num / den : ℚ) < 2 ^ (e₀ + 53) ∧
      exponentFor num den = max minExponent e₀ := by
  have hd' : (0 : ℚ) < den := Nat.cast_pos.2 hd
  have hn₁ : (2 : ℚ) ^ (num.log2 : Int) ≤ num := by
    rw [zpow_natCast]
    exact_mod_cast Nat.log2_self_le hn.ne'
  have hn₂ : (num : ℚ) < 2 ^ (num.log2 + 1 : Int) := by
    exact_mod_cast Nat.lt_log2_self (n := num)
  have hd₁ : (2 : ℚ) ^ (den.log2 : Int) ≤ den := by
    rw [zpow_natCast]
    exact_mod_cast Nat.log2_self_le hd.ne'
  have hd₂ : (den : ℚ) < 2 ^ (den.log2 + 1 : Int) := by
    exact_mod_cast Nat.lt_log2_self (n := den)
  rw [exponentFor]
  generalize hguess : (num.log2 : Int) - den.log2 - 53 = guess
  -- the fraction is compared with a power of two
  have hlarge : (if 0 ≤ guess then decide (den * Nat.pow 2 (guess.toNat + 53) ≤ num)
      else decide (den * Nat.pow 2 53 ≤ num * Nat.pow 2 (-guess).toNat)) = true ↔
        (2 : ℚ) ^ (guess + 53) ≤ num / den := by
    rw [le_div_iff₀ hd', Nat.pow_eq, Nat.pow_eq, Nat.pow_eq]
    split
    · next h =>
      obtain ⟨n, rfl⟩ := Int.eq_ofNat_of_zero_le h
      rw [decide_eq_true_iff, Int.toNat_natCast, Nat.mul_comm]
      norm_cast
    · next h =>
      obtain ⟨n, hneg⟩ := Int.eq_ofNat_of_zero_le (a := -guess) (by omega)
      obtain rfl : guess = -n := by omega
      have hpos : (0 : ℚ) < 2 ^ n := by positivity
      rw [decide_eq_true_iff, neg_neg, Int.toNat_natCast, zpow_add₀ two_ne_zero, zpow_neg, zpow_natCast, mul_assoc,
        inv_mul_le_iff₀ hpos]
      norm_cast
      rw [Nat.mul_comm den, Nat.mul_comm num]
  have hlow : (2 : ℚ) ^ (guess + 52) ≤ num / den := by
    rw [le_div_iff₀ hd']
    calc (2 : ℚ) ^ (guess + 52) * den ≤ 2 ^ (guess + 52) * 2 ^ (den.log2 + 1 : Int) := by gcongr
      _ = 2 ^ (num.log2 : Int) := by
        rw [← zpow_add₀ two_ne_zero]
        congr 1
        omega
      _ ≤ num := hn₁
  have hhigh : (num / den : ℚ) < 2 ^ (guess + 54) := by
    rw [div_lt_iff₀ hd']
    calc (num : ℚ) < 2 ^ (num.log2 + 1 : Int) := hn₂
      _ = 2 ^ (guess + 54) * 2 ^ (den.log2 : Int) := by
        rw [← zpow_add₀ two_ne_zero]
        congr 1
        omega
      _ ≤ 2 ^ (guess + 54) * den := by gcongr
  by_cases h : (2 : ℚ) ^ (guess + 53) ≤ num / den
  · refine ⟨guess + 1, ?_, ?_, by rw [if_pos (hlarge.2 h)]⟩
    · rwa [show guess + 1 + 52 = guess + 53 by ring]
    · rwa [show guess + 1 + 53 = guess + 54 by ring]
  · exact ⟨guess, hlow, not_le.1 h, by rw [if_neg (mt hlarge.1 h)]⟩

/-! ### Reading what a float owns -/

theorem Owns.pos (h : Owns m q v) (hm : 0 < m) : 0 < v := by
  have hmargin := margin_le (m := m) (q := q)
  have hm' : (1 : ℚ) ≤ m := Nat.one_le_cast.2 hm
  exact (mul_pos (by linarith) (by positivity)).trans_le h.le.1

/-- A number that a float owns, in its units. -/
theorem Owns.div (h : Owns m q v) :
    m - margin m q ≤ v / 2 ^ q ∧ v / 2 ^ q ≤ m + 1 / 2 ∧
      (m % 2 = 1 → m - margin m q < v / 2 ^ q ∧ v / 2 ^ q < m + 1 / 2) := by
  have hunit : (0 : ℚ) < 2 ^ q := by positivity
  obtain ⟨hlow, hhigh⟩ := h.le
  refine ⟨(le_div_iff₀ hunit).2 hlow, (div_le_iff₀ hunit).2 hhigh, fun hodd => ?_⟩
  rw [Owns, if_neg (by omega)] at h
  exact ⟨(lt_div_iff₀ hunit).2 h.1, (div_lt_iff₀ hunit).2 h.2⟩

theorem nearest_eq (negative : Bool) (hn : 0 < num) (he : exponentFor num den = e) (hm : roundAt num den e = m) :
    nearest negative num den =
      if m = 2 ^ 53 then assemble negative (2 ^ 52) (e + 1) else assemble negative m e := by
  rw [nearest, if_neg hn.ne']
  dsimp only
  rw [he, hm]
  rfl

/-- A number that is less than the smallest mantissa allows lies below a power of two. -/
theorem eq_of_below (hq : Normalised m q) (hmin : minExponent < q) (h : (m : ℚ) - margin m q < 2 ^ 52) :
    m = 2 ^ 52 ∧ margin m q = 1 / 4 := by
  have hfull : 2 ^ 52 ≤ m := hq.full.resolve_right hmin.ne'
  have hm : m = 2 ^ 52 := by
    have hmargin := margin_le (m := m) (q := q)
    have hlt : (m : ℚ) < (2 ^ 52 + 1 : Nat) := by
      push_cast
      linarith
    have := Nat.cast_lt.1 hlt
    omega
  exact ⟨hm, by rw [margin, if_pos ⟨hm, hmin⟩]⟩

/-- **A number that a float owns is rounded to that float.** -/
theorem nearest_of_owns (negative : Bool) (hm : 0 < m) (hq : Normalised m q) (hd : 0 < den)
    (h : Owns m q (num / den)) : nearest negative num den = assemble negative m q := by
  have hpos := h.pos hm
  have hnum : 0 < num := by
    refine Nat.pos_of_ne_zero fun hzero => ?_
    rw [hzero, Nat.cast_zero, zero_div] at hpos
    exact lt_irrefl _ hpos
  obtain ⟨hlow, hhigh, hodd⟩ := h.div
  obtain ⟨e₀, hge, hlt, hexponent⟩ := exists_exponentFor hnum hd
  have hunit : (0 : ℚ) < 2 ^ q := by positivity
  have hmargin := margin_le (m := m) (q := q)
  have hm53 : (m : ℚ) + 1 ≤ 2 ^ 53 := by exact_mod_cast hq.lt
  -- the number has no more bits than the float
  have hle : e₀ ≤ q := by
    have hbits : (num / den : ℚ) < 2 ^ (q + 53) := by
      rw [add_comm, zpow_add₀ two_ne_zero, ← div_lt_iff₀ hunit, zpow_ofNat]
      linarith
    have := (zpow_lt_zpow_iff_right₀ one_lt_two).1 (hge.trans_lt hbits)
    omega
  rcases le_or_gt q (max minExponent e₀) with hq' | hq'
  · -- it has the exponent of the float
    obtain rfl : max minExponent e₀ = q := le_antisymm (max_le hq.ge hle) hq'
    have hround : roundAt num den (max minExponent e₀) = m :=
      roundAt_eq hd (by linarith) hhigh fun ho => ⟨by linarith [(hodd ho).1], (hodd ho).2⟩
    rw [nearest_eq negative hnum hexponent hround, if_neg hq.lt.ne]
  · -- it lies below a power of two, and is rounded up to it
    have hmin : minExponent < q := (le_max_left _ _).trans_lt hq'
    have he₀ : e₀ < q := (le_max_right _ _).trans_lt hq'
    have hbelow : (num / den / 2 ^ q : ℚ) < 2 ^ 52 := by
      rw [div_lt_iff₀ hunit, ← zpow_natCast, ← zpow_add₀ two_ne_zero]
      refine hlt.trans_le (zpow_le_zpow_right₀ one_le_two ?_)
      omega
    obtain ⟨rfl, hquarter⟩ := eq_of_below hq hmin (hlow.trans_lt hbelow)
    rw [hquarter] at hlow
    push_cast at hlow
    have he : e₀ = q - 1 := by
      have hbits : (2 : ℚ) ^ (q + 51) < num / den := by
        rw [add_comm, zpow_add₀ two_ne_zero, ← lt_div_iff₀ hunit, zpow_ofNat]
        linarith
      have := (zpow_lt_zpow_iff_right₀ one_lt_two).1 (hbits.trans hlt)
      omega
    have hmax : max minExponent e₀ = q - 1 := by omega
    have htwice : (num / den / 2 ^ (q - 1) : ℚ) = 2 * (num / den / 2 ^ q) := by
      rw [zpow_sub_one₀ two_ne_zero]
      field_simp
    have hround : roundAt num den (q - 1) = 2 ^ 53 := by
      refine roundAt_eq hd ?_ ?_ fun ho => by omega
      · rw [htwice]
        push_cast
        linarith
      · rw [htwice]
        push_cast
        linarith
    rw [nearest_eq negative hnum (hexponent.trans hmax) hround, if_pos rfl, sub_add_cancel]

/-- A natural number lies between the powers of ten that its digits tell. -/
theorem toDigits_bounds {n : Nat} (hn : 0 < n) :
    (10 : ℚ) ^ ((Nat.toDigits 10 n).length - 1 : Int) ≤ n ∧ (n : ℚ) < 10 ^ ((Nat.toDigits 10 n).length : Int) := by
  obtain ⟨k, hk⟩ := Nat.exists_eq_add_one.2 (Nat.length_toDigits_pos (b := 10) (n := n))
  have hlt : n < 10 ^ (k + 1) := (Nat.length_toDigits_le_iff (by decide) k.succ_pos).1 hk.le
  have hge : 10 ^ k ≤ n := by
    rcases Nat.eq_zero_or_pos k with rfl | hpos
    · exact hn
    · rw [← not_lt, ← Nat.length_toDigits_le_iff (by decide) hpos]
      omega
  rw [hk, Nat.cast_add_one, add_sub_cancel_right]
  exact ⟨by exact_mod_cast hge, by exact_mod_cast hlt⟩

theorem two_zpow_lt : (2 : ℚ) ^ (1075 : Int) < 10 ^ (400 : Int) := by
  calc (2 : ℚ) ^ (1075 : Int) = (2 ^ 43) ^ 25 := by rw [zpow_ofNat, ← pow_mul]
    _ < (10 ^ 16) ^ 25 := by gcongr; norm_num
    _ = 10 ^ (400 : Int) := by rw [zpow_ofNat, ← pow_mul]

/-- No number that rounds to a float is near the limits of the powers of ten. -/
theorem Owns.bounds (h : Owns m q v) (hm : 0 < m) (hq : Normalised m q) :
    (10 : ℚ) ^ (-400 : Int) < v ∧ v < 10 ^ (400 : Int) := by
  obtain ⟨hlow, hhigh⟩ := h.le
  have hmargin := margin_le (m := m) (q := q)
  have hm' : (1 : ℚ) ≤ m := Nat.one_le_cast.2 hm
  have hm53 : (m : ℚ) + 1 ≤ 2 ^ 53 := by exact_mod_cast hq.lt
  constructor
  · calc (10 : ℚ) ^ (-400 : Int) < 2 ^ (-1075 : Int) := by
          rw [zpow_neg, zpow_neg]
          exact inv_strictAnti₀ (by positivity) two_zpow_lt
      _ = 1 / 2 * 2 ^ minExponent := by
        rw [show (-1075 : Int) = minExponent - 1 from rfl, zpow_sub_one₀ two_ne_zero]
        ring
      _ ≤ (m - margin m q) * 2 ^ q := by
        have hpow := zpow_le_zpow_right₀ (one_le_two (α := ℚ)) hq.ge
        exact mul_le_mul (by linarith) hpow (by positivity) (by linarith)
      _ ≤ v := hlow
  · calc v ≤ (m + 1 / 2) * 2 ^ q := hhigh
      _ ≤ 2 ^ 53 * 2 ^ (971 : Int) := by
        have hpow := zpow_le_zpow_right₀ (one_le_two (α := ℚ)) hq.le
        exact mul_le_mul (by linarith) hpow (by positivity) (by positivity)
      _ ≤ 2 ^ (1075 : Int) := by
        rw [← zpow_natCast, ← zpow_add₀ two_ne_zero]
        exact zpow_le_zpow_right₀ one_le_two (by norm_num)
      _ < 10 ^ (400 : Int) := two_zpow_lt

/-- **A number that a float owns is read as that float.** -/
theorem ofScientific_of_owns (negative : Bool) {n : Nat} {p : Int} (hm : 0 < m) (hq : Normalised m q)
    (h : Owns m q (n * 10 ^ p)) : ofScientific negative n p = assemble negative m q := by
  have hn : 0 < n := by
    refine Nat.pos_of_ne_zero fun hzero => ?_
    have hpos := h.pos hm
    rw [hzero, Nat.cast_zero, zero_mul] at hpos
    exact lt_irrefl _ hpos
  obtain ⟨hlow, hhigh⟩ := h.bounds hm hq
  obtain ⟨hge, hlt⟩ := toDigits_bounds hn
  have hten : (0 : ℚ) < 10 ^ p := by positivity
  -- the number lies between the powers of ten next to its first digit
  have htop : -400 < ((Nat.toDigits 10 n).length + p : Int) := by
    refine (zpow_lt_zpow_iff_right₀ (by norm_num : (1 : ℚ) < 10)).1 (hlow.trans ?_)
    rw [zpow_add₀ (by norm_num)]
    exact mul_lt_mul_of_pos_right hlt hten
  have hbottom : ((Nat.toDigits 10 n).length - 1 + p : Int) < 400 := by
    refine (zpow_lt_zpow_iff_right₀ (by norm_num : (1 : ℚ) < 10)).1 (lt_of_le_of_lt ?_ hhigh)
    rw [zpow_add₀ (by norm_num)]
    exact mul_le_mul_of_nonneg_right hge hten.le
  rw [ofScientific]
  rw [if_neg (by omega), if_neg (by omega)]
  refine nearest_of_owns negative hm hq (Nat.pow_pos (by decide)) ?_
  rwa [Nat.pow_eq, Nat.pow_eq, Nat.cast_mul, Nat.cast_pow, Nat.cast_pow, Nat.cast_ofNat, mul_div_assoc,
    pow_toNat_div (by norm_num)]

/-! ### The interval of a float -/

theorem Interval.den_pos : 0 < (Interval.ofFinite m q).den := Nat.pow_pos (by decide)

/-- A quarter of the unit of a float, as the interval counts it. -/
theorem mul_quarter (x : ℚ) (q : Int) : 4 * x * 2 ^ (q - 2).toNat / 2 ^ (2 - q).toNat = x * 2 ^ q := by
  rw [mul_div_assoc, ← neg_sub q 2, pow_toNat_div two_ne_zero, zpow_sub₀ two_ne_zero]
  ring

theorem Interval.value_div : ((Interval.ofFinite m q).value / (Interval.ofFinite m q).den : ℚ) = m * 2 ^ q := by
  rw [ofFinite]
  push_cast [Nat.pow_eq]
  exact mul_quarter m q

theorem Interval.high_div :
    ((Interval.ofFinite m q).high / (Interval.ofFinite m q).den : ℚ) = (m + 1 / 2) * 2 ^ q := by
  rw [ofFinite, ← mul_quarter]
  push_cast [Nat.pow_eq]
  ring

theorem Interval.low_div (hm : 0 < m) :
    ((Interval.ofFinite m q).low / (Interval.ofFinite m q).den : ℚ) = (m - margin m q) * 2 ^ q := by
  rw [ofFinite, ← mul_quarter, margin, Nat.pow_eq]
  dsimp only
  split
  · push_cast [Nat.pow_eq, Nat.cast_sub (show 1 ≤ 4 * m by omega)]
    ring
  · push_cast [Nat.pow_eq, Nat.cast_sub (show 2 ≤ 4 * m by omega)]
    ring

/-- **The points that the search for the shortest digits looks for are those that the float owns.** -/
theorem Interval.contains_iff {c : Nat} {p : Int} (hm : 0 < m) :
    (Interval.ofFinite m q).contains c p = true ↔ Owns m q (c * 10 ^ p) := by
  have hden : (0 : ℚ) < (Interval.ofFinite m q).den := Nat.cast_pos.2 den_pos
  have hscale : (0 : ℚ) < 10 ^ (-p).toNat := by positivity
  have hpoint : (c * 10 ^ p : ℚ) = c * 10 ^ p.toNat / 10 ^ (-p).toNat := by
    rw [mul_div_assoc, pow_toNat_div (by norm_num)]
  have hclosed : (Interval.ofFinite m q).closed = decide (m % 2 = 0) := rfl
  rw [Owns, ← low_div hm, ← high_div, hpoint, contains, hclosed]
  simp only [div_le_div_iff₀ hden hscale, div_le_div_iff₀ hscale hden, div_lt_div_iff₀ hden hscale,
    div_lt_div_iff₀ hscale hden, decide_eq_true_eq, Nat.pow_eq]
  split <;> simp only [Bool.and_eq_true, decide_eq_true_eq] <;> norm_cast

end

/-! ### Floats and their bits -/

/-- What the bits of a float say, and the float that is made of it. -/
inductive Spells (x : Float) : Binary64 → Prop where
  | nan (h : x = .ofBits 0x7FF8000000000000) : Spells x .nan
  | infinite {negative : Bool} (h : assemble negative (Nat.pow 2 52) 972 = x) : Spells x (.infinite negative)
  | finite {negative : Bool} {m : Nat} {q : Int} (hq : Normalised m q) (h : assemble negative m q = x)
      (hx : x.toBits.toNat ≠ infinityWord) : Spells x (.finite negative m q)

theorem ofBits_toNat (x : Float) : Float.ofBits x.toBits.toNat.toUInt64 = x := by
  rw [Nat.toUInt64_eq, UInt64.ofNat_toNat, Float.ofBits_toBits]

theorem signWord_eq {word : Nat} (h : word < 2 ^ 64) :
    signWord (word / 2 ^ 63 % 2 = 1) = word / 2 ^ 63 * 2 ^ 63 := by
  simp only [signWord, Nat.pow_eq, decide_eq_true_eq]
  split <;> omega

/-- There is one float that is not a number: its bits are determined. -/
theorem eq_nan {x : Float} (hexponent : x.toBits.toNat / 2 ^ 52 % 2 ^ 11 = 2047)
    (hfraction : x.toBits.toNat % 2 ^ 52 ≠ 0) : x = .ofBits 0x7FF8000000000000 := by
  have hnan := x.toModel.valid.eq_packedNaN ?_ ?_
  · rw [← Float.ofBits_toBits x]
    congr 1
    exact UInt64.toBitVec_inj.1 hnan
  · apply BitVec.eq_of_toNat_eq
    rw [Float.Model.UnpackedFloat.unpackExponent, BitVec.toNat_cast, BitVec.extractLsb_toNat,
      Nat.shiftRight_eq_div_pow]
    exact hexponent
  · intro hzero
    apply hfraction
    have hmantissa := congrArg BitVec.toNat hzero
    rw [Float.Model.UnpackedFloat.unpackMantissa, BitVec.toNat_cast, BitVec.extractLsb_toNat] at hmantissa
    exact hmantissa

/-- **A float is made of what its bits say.** -/
theorem spells_ofFloat (x : Float) : Spells x (.ofFloat x) := by
  have hx := ofBits_toNat x
  have hword := x.toBits.toNat_lt
  have hsign := signWord_eq hword
  rw [Binary64.ofFloat, Binary64.ofWord]
  simp only [Nat.pow_eq]
  split
  · next hexponent =>
    split
    · next hfraction =>
      refine .infinite ?_
      rw [assemble, if_pos (by decide), hsign, infinityWord, Nat.pow_eq]
      rwa [show x.toBits.toNat / 2 ^ 63 * 2 ^ 63 + 2047 * 2 ^ 52 = x.toBits.toNat by omega]
    · next hfraction => exact .nan (eq_nan hexponent hfraction)
  · next hexponent =>
    have hinfinity : x.toBits.toNat ≠ infinityWord := fun h => hexponent (by rw [h]; rfl)
    split
    · next hzero =>
      refine .finite ⟨by omega, le_rfl, by decide, .inr rfl⟩ ?_ hinfinity
      rw [assemble, if_neg (by decide), hsign, Int.sub_self, Int.toNat_zero, Nat.zero_mul, Nat.zero_add]
      rwa [show x.toBits.toNat / 2 ^ 63 * 2 ^ 63 + x.toBits.toNat % 2 ^ 52 = x.toBits.toNat by omega]
    · next hpos =>
      refine .finite ⟨by omega, by rw [minExponent]; omega, by omega, .inl (by omega)⟩ ?_ hinfinity
      have hplace : ((x.toBits.toNat / 2 ^ 52 % 2 ^ 11 : Nat) - 1075 - minExponent : Int).toNat =
          x.toBits.toNat / 2 ^ 52 % 2 ^ 11 - 1 := by
        rw [minExponent]
        omega
      rw [assemble, if_neg (by omega), hsign, hplace, Nat.pow_eq]
      rwa [show x.toBits.toNat / 2 ^ 63 * 2 ^ 63 + ((x.toBits.toNat / 2 ^ 52 % 2 ^ 11 - 1) * 2 ^ 52 +
        (2 ^ 52 + x.toBits.toNat % 2 ^ 52)) = x.toBits.toNat by omega]

end SynthControl.Decimal
