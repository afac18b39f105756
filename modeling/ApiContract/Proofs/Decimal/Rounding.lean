import ApiContract.Decimal.Double
import Mathlib.Algebra.Order.Field.Power
import Mathlib.Data.Rat.Cast.Order
import Mathlib.Tactic.FieldSimp
import Mathlib.Tactic.Linarith
import Mathlib.Tactic.NormNum
import Mathlib.Tactic.Positivity
import Mathlib.Tactic.Ring

namespace ApiContract.Double

/-- A double that there is: it has 53 bits, or the smallest exponent. -/
structure Valid (x : Double) : Prop where
  bits : x.mantissa < 2 ^ 53
  leading : x.exponent ≠ smallestExponent → 2 ^ 52 ≤ x.mantissa
  smallest : smallestExponent ≤ x.exponent
  largest : x.exponent ≤ largestExponent

variable {num den n d m k : Nat} {v : ℚ} {e e' : Int}

theorem scaled_pos (hd : 0 < den) (num : Nat) (e : Int) : 0 < (scaled num den e).2 := by
  unfold scaled
  split
  · exact Nat.mul_pos hd (Nat.pow_pos (by decide))
  · exact hd

/-- What is rounded is the quotient in units of `2 ^ e`. -/
theorem scaled_eq (hd : 0 < den) (num : Nat) (e : Int) :
    ((scaled num den e).1 : ℚ) = num / den / 2 ^ e * (scaled num den e).2 := by
  have hden : (den : ℚ) ≠ 0 := by exact_mod_cast hd.ne'
  unfold scaled
  split
  · rename_i he
    obtain ⟨k, rfl⟩ := Int.eq_ofNat_of_zero_le he
    simp only [Int.toNat_natCast, Nat.pow_eq, zpow_natCast, Nat.cast_mul, Nat.cast_pow,
      Nat.cast_ofNat]
    field_simp
  · rename_i he
    obtain ⟨k, rfl⟩ : ∃ k : Nat, e = -k := ⟨(-e).toNat, by omega⟩
    simp only [neg_neg, Int.toNat_natCast, Nat.pow_eq, zpow_neg, zpow_natCast, Nat.cast_mul,
      Nat.cast_pow, Nat.cast_ofNat]
    field_simp

theorem scaled_lt_iff (hd : 0 < den) :
    (scaled num den e).1 < k * (scaled num den e).2 ↔ (num : ℚ) / den < k * 2 ^ e := by
  have hpos : (0 : ℚ) < (scaled num den e).2 := by exact_mod_cast scaled_pos hd num e
  have hpow : (0 : ℚ) < 2 ^ e := by positivity
  rw [← Nat.cast_lt (α := ℚ), Nat.cast_mul, scaled_eq hd, mul_lt_mul_iff_left₀ hpos,
    div_lt_iff₀ hpow]

theorem two_pow_mul (k : Nat) (e : Int) : (2 : ℚ) ^ k * 2 ^ e = 2 ^ (k + e) := by
  rw [zpow_add₀ two_ne_zero, zpow_natCast]

theorem two_zpow_succ (e : Int) : (2 : ℚ) ^ (e + 1) = 2 * 2 ^ e := by
  rw [zpow_add_one₀ two_ne_zero, mul_comm]

/-- The exponent with which a number has 53 bits before the point, or the smallest one. -/
structure Fits (v : ℚ) (e : Int) : Prop where
  smallest : smallestExponent ≤ e
  lt : v < 2 ^ 53 * 2 ^ e
  le : e ≠ smallestExponent → 2 ^ 52 * 2 ^ e ≤ v

theorem Fits.le_of_fits (h : Fits v e) (h' : Fits v e') : e ≤ e' := by
  by_contra hlt
  have hle := h.le fun he => hlt (he ▸ h'.smallest)
  have hstep : (2 : ℚ) ^ 53 * 2 ^ e' ≤ 2 ^ 52 * 2 ^ e := by
    rw [two_pow_mul, two_pow_mul]
    exact zpow_le_zpow_right₀ (by norm_num) (by omega)
  exact absurd (hle.trans_lt h'.lt) (not_lt.mpr hstep)

theorem Fits.eq (h : Fits v e) (h' : Fits v e') : e = e' :=
  le_antisymm (h.le_of_fits h') (h'.le_of_fits h)

/-- A quotient is told from its bits up to a factor of two. -/
theorem log2_bounds (hn : 0 < num) (hd : 0 < den) :
    (2 : ℚ) ^ ((num.log2 : Int) - den.log2 - 1) < num / den ∧
      (num : ℚ) / den < 2 ^ ((num.log2 : Int) - den.log2 + 1) := by
  have hden : (0 : ℚ) < den := by exact_mod_cast hd
  have hnum_le : (2 : ℚ) ^ num.log2 ≤ num := by exact_mod_cast Nat.log2_self_le hn.ne'
  have hnum_lt : (num : ℚ) < 2 ^ (num.log2 + 1) := by exact_mod_cast Nat.lt_log2_self
  have hden_le : (2 : ℚ) ^ den.log2 ≤ den := by exact_mod_cast Nat.log2_self_le hd.ne'
  have hden_lt : (den : ℚ) < 2 ^ (den.log2 + 1) := by exact_mod_cast Nat.lt_log2_self
  constructor
  · rw [lt_div_iff₀ hden]
    calc (2 : ℚ) ^ ((num.log2 : Int) - den.log2 - 1) * den
        < 2 ^ ((num.log2 : Int) - den.log2 - 1) * 2 ^ (den.log2 + 1) := by gcongr
      _ = 2 ^ num.log2 := by
        rw [mul_comm, two_pow_mul, ← zpow_natCast]
        congr 1
        omega
      _ ≤ num := hnum_le
  · rw [div_lt_iff₀ hden]
    calc (num : ℚ) < 2 ^ (num.log2 + 1) := hnum_lt
      _ = 2 ^ ((num.log2 : Int) - den.log2 + 1) * 2 ^ den.log2 := by
        rw [mul_comm, two_pow_mul, ← zpow_natCast]
        congr 1
        omega
      _ ≤ 2 ^ ((num.log2 : Int) - den.log2 + 1) * den := by gcongr

theorem fits_exponentOf (hn : 0 < num) (hd : 0 < den) :
    Fits (num / den) (exponentOf num den) := by
  obtain ⟨hlow, hhigh⟩ := log2_bounds hn hd
  -- Before the smallest exponent comes in, the number has 53 bits before the point.
  obtain ⟨e, he, hle, hlt⟩ : ∃ e, exponentOf num den = max smallestExponent e ∧
      (2 : ℚ) ^ 52 * 2 ^ e ≤ num / den ∧ (num : ℚ) / den < 2 ^ 53 * 2 ^ e := by
    refine ⟨_, rfl, ?_⟩
    simp only [two_pow_mul]
    split <;> rename_i h
    · have hlt := (scaled_lt_iff hd).mp h
      rw [Nat.pow_eq, Nat.cast_pow, Nat.cast_ofNat, two_pow_mul] at hlt
      exact ⟨le_of_eq_of_le (by congr 1; omega) hlow.le,
        lt_of_lt_of_eq hlt (by congr 1; omega)⟩
    · have hle := not_lt.mp (mt (scaled_lt_iff hd).mpr h)
      rw [Nat.pow_eq, Nat.cast_pow, Nat.cast_ofNat, two_pow_mul] at hle
      exact ⟨hle, lt_of_lt_of_eq hhigh (by congr 1; omega)⟩
  rw [he]
  refine ⟨le_max_left _ _, hlt.trans_le ?_, fun hne => ?_⟩
  · gcongr
    · norm_num
    · exact le_max_right _ _
  · rwa [(max_choice smallestExponent e).resolve_left hne]

theorem nearest_cases (n d : Nat) : nearest n d = n / d ∨ nearest n d = n / d + 1 := by
  unfold nearest
  rcases Nat.mod_two_eq_zero_or_one (n / d) with h | h <;> grind

theorem nearest_le (h : n < k * d) : nearest n d ≤ k := by
  have := Nat.div_lt_of_lt_mul (Nat.mul_comm k d ▸ h)
  rcases nearest_cases n d with he | he <;> omega

theorem le_nearest (hd : 0 < d) (h : k * d ≤ n) : k ≤ nearest n d := by
  have := (Nat.le_div_iff_mul_le hd).mpr h
  rcases nearest_cases n d with he | he <;> omega

/-- A number at most one half away is the nearest, if it is even or not one half away. -/
theorem nearest_eq (hd : 0 < d) (hlow : 2 * m * d ≤ 2 * n + d) (hhigh : 2 * n ≤ 2 * m * d + d)
    (htie : m % 2 = 1 → 2 * m * d < 2 * n + d ∧ 2 * n < 2 * m * d + d) : nearest n d = m := by
  have hdiv := Nat.div_add_mod n d
  have hmod := Nat.mod_lt n hd
  unfold nearest
  generalize n / d = q at hdiv ⊢
  generalize n % d = r at hdiv hmod ⊢
  rw [Nat.mul_assoc, Nat.mul_comm m d] at hlow hhigh htie
  have hq : q = m ∨ m = q + 1 := by
    have hle : d * q < d * (m + 1) := by rw [Nat.mul_succ]; omega
    have hge : d * m < d * (q + 2) := by rw [Nat.mul_add]; omega
    have := Nat.lt_of_mul_lt_mul_left hle
    have := Nat.lt_of_mul_lt_mul_left hge
    omega
  rcases hq with rfl | rfl
  · simp only
    split
    · rfl
    · split <;> omega
  · rw [Nat.mul_succ] at hlow hhigh htie
    simp only
    split
    · omega
    · split <;> omega

theorem valid_zero (negative : Bool) : Valid ⟨negative, 0, smallestExponent⟩ where
  bits := Nat.two_pow_pos 53
  leading he := absurd rfl he
  smallest := Int.le_refl smallestExponent
  largest := show smallestExponent ≤ largestExponent by decide

/-- Whatever a quotient is rounded to is a double that there is. -/
theorem valid_ofRatio? {negative : Bool} {x : Double} (hd : 0 < den)
    (h : ofRatio? negative num den = some x) : x.Valid := by
  unfold ofRatio? at h
  split at h
  · cases h
    exact valid_zero negative
  · rename_i hn
    have hfits := fits_exponentOf (Nat.pos_of_ne_zero hn) hd
    set e := exponentOf num den
    have hm_le : nearest (scaled num den e).1 (scaled num den e).2 ≤ 2 ^ 53 :=
      nearest_le ((scaled_lt_iff hd).mpr (by exact_mod_cast hfits.lt))
    have hm_ge (hne : e ≠ smallestExponent) :
        2 ^ 52 ≤ nearest (scaled num den e).1 (scaled num den e).2 :=
      le_nearest (scaled_pos hd num e)
        (not_lt.mp (mt (scaled_lt_iff hd).mp (not_lt.mpr (by exact_mod_cast hfits.le hne))))
    simp only [Option.ite_none_right_eq_some, Option.some.injEq] at h
    obtain ⟨hlargest, rfl⟩ := h
    generalize nearest (scaled num den e).1 (scaled num den e).2 = m at *
    have hsmallest := hfits.smallest
    by_cases hm : m = Nat.pow 2 53
    · rw [if_pos hm] at hlargest ⊢
      exact ⟨by norm_num, fun _ => le_refl _, Int.le_add_one hsmallest, hlargest⟩
    · rw [if_neg hm] at hlargest ⊢
      exact ⟨lt_of_le_of_ne hm_le hm, hm_ge, hsmallest, hlargest⟩

/-- What is at most one half of a unit away from an integer is rounded to it. -/
theorem nearest_scaled (hd : 0 < den) (hlow : (m - 1 / 2) * 2 ^ e ≤ (num : ℚ) / den)
    (hhigh : (num : ℚ) / den ≤ (m + 1 / 2) * 2 ^ e)
    (htie : m % 2 = 1 →
      (m - 1 / 2) * 2 ^ e < (num : ℚ) / den ∧ (num : ℚ) / den < (m + 1 / 2) * 2 ^ e) :
    nearest (scaled num den e).1 (scaled num den e).2 = m := by
  have hpos := scaled_pos hd num e
  have hunit : (0 : ℚ) < 2 ^ e := by positivity
  have hvalue : (num : ℚ) / den = (scaled num den e).1 / (scaled num den e).2 * 2 ^ e := by
    have hne : ((scaled num den e).2 : ℚ) ≠ 0 := by exact_mod_cast hpos.ne'
    rw [scaled_eq hd]
    field_simp
  generalize scaled num den e = found at *
  obtain ⟨n, d⟩ := found
  have hd' : (0 : ℚ) < d := by exact_mod_cast hpos
  simp only [hvalue, mul_le_mul_iff_left₀ hunit, mul_lt_mul_iff_left₀ hunit, le_div_iff₀ hd',
    div_le_iff₀ hd', lt_div_iff₀ hd', div_lt_iff₀ hd'] at hlow hhigh htie
  refine nearest_eq hpos ?_ ?_ fun hodd => ⟨?_, ?_⟩
  · have : (2 * m * d : ℚ) ≤ 2 * n + d := by linarith
    exact_mod_cast this
  · have : (2 * n : ℚ) ≤ 2 * m * d + d := by linarith
    exact_mod_cast this
  · have : (2 * m * d : ℚ) < 2 * n + d := by linarith [(htie hodd).1]
    exact_mod_cast this
  · have : (2 * n : ℚ) < 2 * m * d + d := by linarith [(htie hodd).2]
    exact_mod_cast this

/-- The number that a double stands for, without its sign. -/
def magnitude (x : Double) : ℚ := x.mantissa * 2 ^ x.exponent

/-- How far the numbers that are read as a double go below it, in its own unit. Those below a power
of two stand half as far apart as those above. -/
def below (x : Double) : ℚ :=
  if x.mantissa = 2 ^ 52 ∧ x.exponent ≠ smallestExponent then 1 / 4 else 1 / 2

theorem below_le (x : Double) : x.below ≤ 1 / 2 := by
  unfold below
  split <;> norm_num

/-- No double is nearer to the number, and of two that are as near the double has the even
mantissa. -/
structure Near (x : Double) (v : ℚ) : Prop where
  low : (x.mantissa - x.below) * 2 ^ x.exponent ≤ v
  high : v ≤ (x.mantissa + 1 / 2) * 2 ^ x.exponent
  inside : x.mantissa % 2 = 1 →
    (x.mantissa - x.below) * 2 ^ x.exponent < v ∧ v < (x.mantissa + 1 / 2) * 2 ^ x.exponent

/-- A number near a double has the exponent of the double, or it is below a power of two. -/
theorem Near.exponent {x : Double} (hx : x.Valid) (h : x.Near v) (hfits : Fits v e) :
    e = x.exponent ∨ e + 1 = x.exponent ∧ x.mantissa = 2 ^ 52 ∧ x.below = 1 / 4 ∧
      v < 2 ^ 52 * 2 ^ x.exponent := by
  have hunit : (0 : ℚ) < 2 ^ x.exponent := by positivity
  have hbits : (x.mantissa : ℚ) + 1 ≤ 2 ^ 53 := by exact_mod_cast hx.bits
  have hlt : v < 2 ^ 53 * 2 ^ x.exponent :=
    h.high.trans_lt (mul_lt_mul_of_pos_right (by linarith) hunit)
  by_cases hle : x.exponent ≠ smallestExponent → 2 ^ 52 * 2 ^ x.exponent ≤ v
  · exact .inl (hfits.eq ⟨hx.smallest, hlt, hle⟩)
  · rw [Classical.not_imp, not_le] at hle
    obtain ⟨hne, hv⟩ := hle
    have hleading : (2 : ℚ) ^ 52 ≤ x.mantissa := by exact_mod_cast hx.leading hne
    have hlow : (x.mantissa : ℚ) - x.below < 2 ^ 52 :=
      lt_of_mul_lt_mul_right (h.low.trans_lt hv) hunit.le
    have hm : x.mantissa = 2 ^ 52 := by
      have : (x.mantissa : ℚ) < 2 ^ 52 + 1 := by linarith [x.below_le]
      exact le_antisymm (Nat.le_of_lt_succ (by exact_mod_cast this)) (hx.leading hne)
    have hbelow : x.below = 1 / 4 := if_pos ⟨hm, hne⟩
    refine .inr ⟨?_, hm, hbelow, hv⟩
    have hhalf : (2 : ℚ) ^ x.exponent = 2 * 2 ^ (x.exponent - 1) := by
      rw [← two_zpow_succ, sub_add_cancel]
    have hv_le := h.low
    rw [hm, hbelow, hhalf] at hv_le
    have heq : e = x.exponent - 1 := by
      refine hfits.eq ⟨?_, ?_, fun _ => ?_⟩
      · have := hx.smallest
        omega
      · rw [hhalf] at hv
        linarith
      · push_cast at hv_le
        linarith [show (0 : ℚ) < 2 ^ (x.exponent - 1) by positivity]
    omega

/-- A number near a double is read as the double. -/
theorem ofRatio?_of_near {x : Double} (hx : x.Valid) (hn : 0 < num) (hd : 0 < den)
    (h : x.Near (num / den)) (negative : Bool) :
    ofRatio? negative num den = some ⟨negative, x.mantissa, x.exponent⟩ := by
  unfold ofRatio?
  rw [if_neg hn.ne']
  simp only
  rcases h.exponent hx (fits_exponentOf hn hd) with he | ⟨he, hm, hbelow, hlt⟩
  · have hnearest : nearest (scaled num den x.exponent).1 (scaled num den x.exponent).2 =
        x.mantissa := by
      have hle : (x.mantissa - 1 / 2) * 2 ^ x.exponent ≤
          (x.mantissa - x.below) * (2 : ℚ) ^ x.exponent := by
        gcongr
        exact x.below_le
      exact nearest_scaled hd (hle.trans h.low) h.high fun hodd =>
        ⟨hle.trans_lt (h.inside hodd).1, (h.inside hodd).2⟩
    rw [he, hnearest, if_neg (show x.mantissa ≠ Nat.pow 2 53 from hx.bits.ne)]
    exact if_pos hx.largest
  · -- Below a power of two the number is rounded up to it, with one bit too many.
    have hnearest : nearest (scaled num den (exponentOf num den)).1
        (scaled num den (exponentOf num den)).2 = 2 ^ 53 := by
      have hv_le := h.low
      rw [hm, hbelow, ← he, two_zpow_succ] at hv_le
      rw [← he, two_zpow_succ] at hlt
      have hunit : (0 : ℚ) < 2 ^ exponentOf num den := by positivity
      push_cast at hv_le
      refine nearest_scaled hd ?_ ?_ fun hodd => absurd hodd (by decide)
      · push_cast
        linarith
      · push_cast
        linarith
    rw [hnearest, Nat.pow_eq, if_pos rfl, he, hm]
    exact if_pos hx.largest

theorem ofDecimal?_eq (negative : Bool) (digits : Nat) (exponent : Int) :
    ∃ num den : Nat, 0 < den ∧ (num : ℚ) / den = digits * 10 ^ exponent ∧
      ofDecimal? negative digits exponent = ofRatio? negative num den := by
  unfold ofDecimal?
  split
  · rename_i h
    obtain ⟨k, rfl⟩ := Int.eq_ofNat_of_zero_le h
    exact ⟨digits * Nat.pow 10 k, 1, Nat.one_pos, by simp, rfl⟩
  · rename_i h
    obtain ⟨k, rfl⟩ : ∃ k : Nat, exponent = -k := ⟨(-exponent).toNat, by omega⟩
    exact ⟨digits, Nat.pow 10 k, Nat.pow_pos (by decide), by simp [div_eq_mul_inv], by simp⟩

/-- A decimal near a double is read as the double. -/
theorem ofDecimal?_of_near {x : Double} {digits : Nat} {exponent : Int} (hx : x.Valid)
    (hdigits : 0 < digits) (h : x.Near (digits * 10 ^ exponent)) (negative : Bool) :
    ofDecimal? negative digits exponent = some ⟨negative, x.mantissa, x.exponent⟩ := by
  obtain ⟨num, den, hden, hvalue, he⟩ := ofDecimal?_eq negative digits exponent
  have hpos : (0 : ℚ) < num / den := by
    rw [hvalue]
    positivity
  have hnum : 0 < num := Nat.pos_of_ne_zero fun hzero => by simp [hzero] at hpos
  rw [he]
  exact ofRatio?_of_near hx hnum hden (hvalue ▸ h) negative

section

variable {x y : Double}

theorem valid_getD {found : Option Double} (h : ∀ y, found = some y → y.Valid) :
    (found.getD zero).Valid := by
  cases found with
  | none => exact valid_zero false
  | some y => exact h y rfl

theorem Valid.negate (h : x.Valid) : x.negate.Valid := ⟨h.bits, h.leading, h.smallest, h.largest⟩

theorem ratio_pos (x : Double) : 0 < x.ratio.2 := by
  unfold ratio
  split
  · exact Nat.one_pos
  · exact Nat.pow_pos (by decide)

theorem valid_ofNat? {n : Nat} (h : ofNat? n = some x) : x.Valid :=
  valid_ofRatio? Nat.one_pos h

theorem valid_mul? {z : Double} (h : mul? x y = some z) : z.Valid :=
  valid_ofRatio? (Nat.mul_pos x.ratio_pos y.ratio_pos) h

theorem valid_div? {z : Double} (hy : 0 < y.ratio.1) (h : div? x y = some z) : z.Valid :=
  valid_ofRatio? (Nat.mul_pos x.ratio_pos hy) h

end

end ApiContract.Double
