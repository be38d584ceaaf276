import SynthControl.Proofs.Numerals
import SynthControl.Proofs.Rounding

/-!
# The digits of a float

The search for the fewest digits ends with digits that read back.  Of all grids that are tried the last one, with
seventeen digits, has a point that the float owns.

* `Interval.magnitude_bounds` — the digits in front of the point;
* `Interval.onGrid?_seventeen` — **with seventeen digits there is a point that the float owns**;
* `Interval.shortest_owns` — **the float owns the digits that the search ends with**;
* `dropZeros_value` — zeros at the end of a fraction do not count;
* `IsWhole`, `IsPositional`, `positional_isPositional` — the digits as they are written, and their value.
-/

namespace SynthControl.Decimal

namespace Interval

variable {m : Nat} {q : Int}

/-! ### Seventeen digits suffice -/

theorem digitCount_bounds {n : Nat} (hn : 0 < n) :
    ∃ k, digitCount n = k + 1 ∧ 10 ^ k ≤ n ∧ n < 10 ^ (k + 1) := by
  obtain ⟨k, hk⟩ := Nat.exists_eq_add_one.2 (Nat.length_toDigits_pos (b := 10) (n := n))
  obtain ⟨hge, hlt⟩ := toDigits_bounds hn
  rw [hk, Nat.cast_add_one, add_sub_cancel_right] at hge
  rw [hk] at hlt
  rw [digitCount, if_neg hn.ne', hk]
  exact ⟨k, rfl, by exact_mod_cast hge, by exact_mod_cast hlt⟩

theorem value_pos (hm : 0 < m) : 0 < (ofFinite m q).value :=
  Nat.mul_pos (Nat.mul_pos (by decide) hm) (Nat.pow_pos (by decide))

/-- **The magnitude of a float tells between which powers of ten it lies.** -/
theorem magnitude_bounds (hm : 0 < m) :
    (10 : ℚ) ^ ((ofFinite m q).magnitude - 1) ≤ m * 2 ^ q ∧ (m * 2 ^ q : ℚ) < 10 ^ (ofFinite m q).magnitude := by
  have hvalue := value_pos (q := q) hm
  have hden : 0 < (ofFinite m q).den := den_pos
  rw [← value_div, magnitude]
  generalize (ofFinite m q).value = value at hvalue ⊢
  generalize (ofFinite m q).den = den at hden ⊢
  have hvalue' : (0 : ℚ) < value := Nat.cast_pos.2 hvalue
  have hden' : (0 : ℚ) < den := Nat.cast_pos.2 hden
  split
  · next hle =>
    -- the digits of the integral part
    obtain ⟨k, hk, hge, hlt⟩ := digitCount_bounds (Nat.div_pos hle hden)
    rw [Nat.le_div_iff_mul_le hden] at hge
    rw [Nat.div_lt_iff_lt_mul hden] at hlt
    rw [hk, Nat.cast_add_one, add_sub_cancel_right, le_div_iff₀ hden', div_lt_iff₀ hden']
    exact ⟨by exact_mod_cast hge, by exact_mod_cast hlt⟩
  · next hlt =>
    -- the zeros behind the point
    rw [not_le] at hlt
    obtain ⟨k, hk, hge, hlt⟩ := digitCount_bounds (Nat.div_pos (Nat.le_sub_one_of_lt hlt) hvalue)
    rw [Nat.le_div_iff_mul_le hvalue] at hge
    rw [Nat.div_lt_iff_lt_mul hvalue] at hlt
    rw [hk]
    constructor
    · rw [show (1 - (k + 1 : Nat) - 1 : Int) = -(k + 1 : Nat) by omega, zpow_neg, zpow_natCast, le_div_iff₀ hden',
        inv_mul_le_iff₀ (by positivity)]
      exact_mod_cast (by omega : den ≤ 10 ^ (k + 1) * value)
    · rw [show (1 - (k + 1 : Nat) : Int) = -k by omega, zpow_neg, zpow_natCast, div_lt_iff₀ hden', ← div_eq_inv_mul,
        lt_div_iff₀ (by positivity), mul_comm]
      exact_mod_cast (by omega : 10 ^ k * value < den)

theorem owns_of_lt {v : ℚ} (hlow : (m - margin m q) * 2 ^ q < v) (hhigh : v < (m + 1 / 2) * 2 ^ q) : Owns m q v := by
  rw [Owns]
  split
  · exact ⟨hlow.le, hhigh.le⟩
  · exact ⟨hlow, hhigh⟩

/-- The multiple of a power of ten next below a float. -/
def gridBelow (i : Interval) (p : Int) : Nat := i.value * Nat.pow 10 (-p).toNat / (i.den * Nat.pow 10 p.toNat)

/-- A float lies between its neighbours on a grid. -/
theorem gridBelow_bounds (m : Nat) (q p : Int) :
    ((ofFinite m q).gridBelow p * 10 ^ p : ℚ) ≤ m * 2 ^ q ∧
      (m * 2 ^ q : ℚ) < ((ofFinite m q).gridBelow p + 1 : Nat) * 10 ^ p := by
  have hden : 0 < (ofFinite m q).den * Nat.pow 10 p.toNat := Nat.mul_pos den_pos (Nat.pow_pos (by decide))
  have hten : (0 : ℚ) < 10 ^ p := by positivity
  have hscaled : (((ofFinite m q).value * Nat.pow 10 (-p).toNat : Nat) : ℚ) /
      ((ofFinite m q).den * Nat.pow 10 p.toNat : Nat) = m * 2 ^ q / 10 ^ p := by
    rw [← value_div, Nat.pow_eq, Nat.pow_eq]
    push_cast
    have hratio := pow_toNat_div (b := 10) (by norm_num) (-p)
    rw [neg_neg] at hratio
    rw [mul_div_mul_comm, hratio, zpow_neg, ← div_eq_mul_inv]
  rw [gridBelow]
  generalize (ofFinite m q).value * Nat.pow 10 (-p).toNat = num at hscaled ⊢
  generalize (ofFinite m q).den * Nat.pow 10 p.toNat = den at hden hscaled ⊢
  have hden' : (0 : ℚ) < den := Nat.cast_pos.2 hden
  constructor
  · rw [← le_div_iff₀ hten, ← hscaled]
    exact Nat.cast_div_le
  · rw [← div_lt_iff₀ hten, ← hscaled, div_lt_iff₀ hden']
    exact_mod_cast (Nat.div_lt_iff_lt_mul hden).1 (Nat.lt_succ_self _)

/-- **On a grid that is fine enough one of the neighbours of a float is its own.** -/
theorem owns_neighbour {δ : ℚ} {c : Nat} (hm : 0 < m) (hq : Normalised m q) (hfine : 10 ^ 16 * δ ≤ m * 2 ^ q)
    (hle : c * δ ≤ m * 2 ^ q) (hlt : (m * 2 ^ q : ℚ) < (c + 1 : Nat) * δ) :
    Owns m q (c * δ) ∨ Owns m q ((c + 1 : Nat) * δ) := by
  have hunit : (0 : ℚ) < 2 ^ q := by positivity
  have hm53 : (m : ℚ) + 1 ≤ 2 ^ 53 := by exact_mod_cast hq.lt
  push_cast at hlt ⊢
  have hpos := margin_pos (m := m) (q := q)
  rcases lt_or_ge ((c + 1) * δ) ((m + 1 / 2) * 2 ^ q) with hhigh | hhigh
  · exact .inr (owns_of_lt (by nlinarith) hhigh)
  · left
    have hm52 : m ≠ 2 ^ 52 := by
      rintro rfl
      push_cast at *
      nlinarith
    have hmargin : margin m q = 1 / 2 := by rw [margin, if_neg fun h => hm52 h.1]
    refine owns_of_lt ?_ (by nlinarith)
    rw [hmargin]
    nlinarith

/-- A grid with a neighbour that the float owns is hit. -/
theorem onGrid?_isSome {i : Interval} {p : Int}
    (h : i.contains (i.gridBelow p) p = true ∨ i.contains (i.gridBelow p + 1) p = true) :
    (i.onGrid? p).isSome = true := by
  rw [onGrid?, ← gridBelow]
  split
  · rfl
  · rfl
  · rfl
  · next hlow hhigh =>
    rw [hlow, hhigh] at h
    simp at h

/-- **With seventeen digits there is a number that the float owns.** -/
theorem onGrid?_seventeen (hm : 0 < m) (hq : Normalised m q) :
    ((ofFinite m q).onGrid? ((ofFinite m q).magnitude - 17)).isSome = true := by
  generalize hk : (ofFinite m q).magnitude = k
  obtain ⟨hmagnitude, -⟩ := magnitude_bounds (q := q) hm
  rw [hk] at hmagnitude
  obtain ⟨hle, hlt⟩ := gridBelow_bounds m q (k - 17)
  have hfine : (10 : ℚ) ^ 16 * 10 ^ (k - 17) ≤ m * 2 ^ q := by
    rw [← zpow_natCast, ← zpow_add₀ (by norm_num), show ((16 : Nat) + (k - 17) : Int) = k - 1 by push_cast; ring]
    exact hmagnitude
  apply onGrid?_isSome
  rw [contains_iff hm, contains_iff hm]
  exact owns_neighbour hm hq hfine hle hlt

/-- A search that meets a grid with a hit ends with one. -/
theorem search_contains {i : Interval} {k : Int} {tries n : Nat}
    (h : ∃ j < tries, (i.onGrid? (k - (n + j : Nat))).isSome = true) :
    i.contains (i.search k tries n).1 (i.search k tries n).2 = true := by
  induction tries generalizing n with
  | zero =>
    obtain ⟨j, hj, -⟩ := h
    exact absurd hj (Nat.not_lt_zero j)
  | succ tries ih =>
    rw [search]
    split
    · next c hc => exact onGrid?_contains hc
    · next hnone =>
      obtain ⟨j, hj, hsome⟩ := h
      cases j with
      | zero =>
        rw [Nat.add_zero, hnone] at hsome
        cases hsome
      | succ j => exact ih ⟨j, Nat.lt_of_succ_lt_succ hj, by rwa [Nat.succ_add_eq_add_succ]⟩

/-- **The digits that the search ends with are the float's own.** -/
theorem shortest_owns (hm : 0 < m) (hq : Normalised m q) :
    Owns m q ((ofFinite m q).shortest.1 * 10 ^ (ofFinite m q).shortest.2) := by
  rw [← contains_iff hm, shortest]
  exact search_contains ⟨16, by decide, onGrid?_seventeen hm hq⟩

end Interval

/-! ### The digits as they are written -/

/-- Zeros at the end of a fraction do not count. -/
theorem dropZeros_value (tries c : Nat) (p : Int) :
    ((dropZeros tries c p).1 * 10 ^ (dropZeros tries c p).2 : ℚ) = c * 10 ^ p := by
  induction tries generalizing c p with
  | zero => rfl
  | succ tries ih =>
    rw [dropZeros]
    split
    · next h =>
      obtain ⟨k, rfl⟩ := Nat.dvd_of_mod_eq_zero h.2
      rw [ih, Nat.mul_div_cancel_left k (by decide), zpow_add_one₀ (by norm_num)]
      push_cast
      ring
    · rfl

/-- The digits of an integral part: a zero, or digits that do not begin with one. -/
inductive IsWhole : List Char → Prop where
  | zero : IsWhole ['0']
  | digits {c : Char} {ds : List Char} (hc : c ≠ '0') (hd : IsDigits (c :: ds)) : IsWhole (c :: ds)

theorem IsWhole.isDigits {ds : List Char} (h : IsWhole ds) : IsDigits ds := by
  cases h with
  | zero => simp [IsDigits]
  | digits _ hd => exact hd

theorem isDigits_toDigits (n : Nat) : IsDigits (Nat.toDigits 10 n) :=
  fun _ hc => Nat.isDigit_of_mem_toDigits (by decide) (by decide) hc

/-- The first digit of a number is no zero. -/
theorem head_toDigits {n : Nat} (hn : 0 < n) : ∃ c ds, Nat.toDigits 10 n = c :: ds ∧ c ≠ '0' := by
  induction n using Nat.strongRecOn with
  | ind n ih =>
    rcases Nat.lt_or_ge n 10 with hlt | hge
    · refine ⟨n.digitChar, [], Nat.toDigits_of_lt_base hlt, ?_⟩
      interval_cases n <;> decide
    · obtain ⟨c, ds, hdigits, hc⟩ := ih (n / 10) (by omega) (by omega)
      refine ⟨c, ds ++ [(n % 10).digitChar], ?_, hc⟩
      rw [Nat.toDigits_of_base_le (by decide) hge, hdigits, List.cons_append]

/-- The digits of a natural number are an integral part. -/
theorem isWhole_toDigits (n : Nat) : IsWhole (Nat.toDigits 10 n) := by
  rcases Nat.eq_zero_or_pos n with rfl | hn
  · exact .zero
  · obtain ⟨c, ds, hdigits, hc⟩ := head_toDigits hn
    have hd := isDigits_toDigits n
    rw [hdigits] at hd ⊢
    exact .digits hc hd

theorem ofDigits_eq_ofDigitChars (ds : List Char) : ofDigits ds = Nat.ofDigitChars 10 ds 0 := rfl

theorem ofDigits_toDigits (n : Nat) : ofDigits (Nat.toDigits 10 n) = n := Nat.ofDigitChars_ten_toDigits

/-- Without a fraction the digits are those of the number, with zeros behind them. -/
theorem positional_of_nonneg {c : Nat} {p : Int} (hc : 0 < c) (hp : 0 ≤ p) :
    IsWhole (positional c p) ∧ (ofDigits (positional c p) : ℚ) = c * 10 ^ p := by
  rw [positional, if_pos hp]
  constructor
  · obtain ⟨d, ds, hdigits, hd⟩ := head_toDigits hc
    have hall : IsDigits (Nat.toDigits 10 c ++ List.replicate p.toNat '0') := by
      intro x hx
      rcases List.mem_append.1 hx with hx | hx
      · exact isDigits_toDigits c x hx
      · rw [List.eq_of_mem_replicate hx]
        rfl
    rw [hdigits] at hall ⊢
    exact .digits hd hall
  · rw [ofDigits_eq_ofDigitChars, Nat.ofDigitChars_append, Nat.ofDigitChars_ten_toDigits,
      Nat.ofDigitChars_replicate_zero]
    obtain ⟨n, rfl⟩ := Int.eq_ofNat_of_zero_le hp
    rw [Int.toNat_natCast, zpow_natCast]
    push_cast
    ring

/-- **A fraction has the places that it is to have**, and a digit stands in front of its point. -/
theorem positional_of_neg {c : Nat} {p : Int} (hc : 0 < c) (hp : p < 0) :
    ∃ whole fraction, positional c p = whole ++ '.' :: fraction ∧ IsWhole whole ∧ IsDigits fraction ∧
      (fraction.length : Int) = -p ∧ ofDigits (whole ++ fraction) = c := by
  obtain ⟨n, rfl⟩ : ∃ n : Nat, p = -(n + 1 : Nat) := ⟨(-p).toNat - 1, by omega⟩
  rw [positional, if_neg (by omega)]
  dsimp only
  rw [neg_neg, Int.toNat_natCast]
  obtain ⟨d, ds, hdigits, hd⟩ := head_toDigits hc
  have hall := isDigits_toDigits c
  have hvalue := ofDigits_toDigits c
  rw [hdigits] at hall hvalue ⊢
  have hlength : (List.replicate (n + 1 + 1 - (d :: ds).length) '0' ++ d :: ds).length =
      max (n + 2) (d :: ds).length := by
    rw [List.length_append, List.length_replicate]
    omega
  have hpadded : IsDigits (List.replicate (n + 1 + 1 - (d :: ds).length) '0' ++ d :: ds) := by
    intro x hx
    rcases List.mem_append.1 hx with hx | hx
    · rw [List.eq_of_mem_replicate hx]
      rfl
    · exact hall x hx
  refine ⟨_, _, rfl, ?_, fun x hx => hpadded x (List.mem_of_mem_drop hx), ?_, ?_⟩
  · rcases Nat.lt_or_ge (n + 1) (d :: ds).length with hlong | hshort
    · -- enough digits for the fraction, and more
      obtain ⟨k, hk⟩ : ∃ k, (d :: ds).length - (n + 1) = k + 1 := ⟨(d :: ds).length - (n + 1) - 1, by omega⟩
      rw [Nat.sub_eq_zero_of_le hlong, List.replicate_zero, List.nil_append, hk, List.take_succ_cons]
      exact .digits hd fun x hx => hall x (by
        rw [← List.take_succ_cons] at hx
        exact List.mem_of_mem_take hx)
    · -- zeros fill the fraction up, and one of them stands in front of the point
      obtain ⟨k, hk⟩ : ∃ k, n + 1 + 1 - (d :: ds).length = k + 1 := ⟨n + 1 - (d :: ds).length, by omega⟩
      rw [hlength, max_eq_left (by omega), hk, List.replicate_succ, List.cons_append,
        show n + 2 - (n + 1) = 1 by omega, List.take_succ_cons, List.take_zero]
      exact .zero
  · rw [List.length_drop, hlength]
    omega
  · rw [List.take_append_drop, ofDigits_eq_ofDigitChars, Nat.ofDigitChars_append, Nat.ofDigitChars_replicate_zero,
      Nat.mul_zero]
    exact hvalue

end SynthControl.Decimal
