import ApiContract.Decimal.Shortest
import ApiContract.Proofs.Decimal.Rounding

namespace ApiContract

variable {x : Double} {num den n d : Nat} {k : Int}

/-- The numerator of a power of `b`. -/
abbrev powNum (b : Nat) (k : Int) : Nat := if 0 ≤ k then Nat.pow b k.toNat else 1

/-- The denominator of a power of `b`. -/
abbrev powDen (b : Nat) (k : Int) : Nat := if 0 ≤ k then 1 else Nat.pow b (-k).toNat

section Powers

variable {b : Nat} (hb : 0 < b) (k : Int)

include hb

theorem powNum_pos : 0 < powNum b k := by
  unfold powNum
  split
  · exact Nat.pow_pos hb
  · exact Nat.one_pos

theorem powDen_pos : 0 < powDen b k := by
  unfold powDen
  split
  · exact Nat.one_pos
  · exact Nat.pow_pos hb

theorem powNum_eq : (powNum b k : ℚ) = b ^ k * powDen b k := by
  by_cases hk : 0 ≤ k
  · obtain ⟨j, rfl⟩ := Int.eq_ofNat_of_zero_le hk
    simp
  · obtain ⟨j, rfl⟩ : ∃ j : Nat, k = -j := ⟨(-k).toNat, by omega⟩
    have hne : (b : ℚ) ≠ 0 := by exact_mod_cast hb.ne'
    rw [powNum, powDen, if_neg hk, if_neg hk, neg_neg, Int.toNat_natCast]
    simp [hne]

end Powers

namespace Decimal

/-- The number that a decimal stands for. -/
def value (d : Decimal) : ℚ := d.digits * 10 ^ d.exponent

theorem den_intervalOf_pos (x : Double) : 0 < (intervalOf x).den :=
  powDen_pos (by decide) (x.exponent - 2)

theorem quarter_zpow (e : Int) : (2 : ℚ) ^ (e - 2) = 2 ^ e / 4 := by
  rw [zpow_sub₀ two_ne_zero]
  norm_num

theorem value_intervalOf (x : Double) :
    ((intervalOf x).value : ℚ) = x.magnitude * (intervalOf x).den := by
  have hunit := powNum_eq (by decide : 0 < 2) (x.exponent - 2)
  simp only [intervalOf, Nat.cast_mul, hunit, Double.magnitude]
  push_cast [quarter_zpow]
  ring

theorem high_intervalOf (x : Double) :
    ((intervalOf x).high : ℚ) =
      (x.mantissa + 1 / 2) * 2 ^ x.exponent * (intervalOf x).den := by
  have hunit := powNum_eq (by decide : 0 < 2) (x.exponent - 2)
  simp only [intervalOf, Nat.cast_mul, hunit]
  push_cast [quarter_zpow]
  ring

theorem low_intervalOf (hx : 0 < x.mantissa) :
    ((intervalOf x).low : ℚ) =
      (x.mantissa - x.below) * 2 ^ x.exponent * (intervalOf x).den := by
  have hunit := powNum_eq (by decide : 0 < 2) (x.exponent - 2)
  have hbelow : ((4 * x.mantissa - (if x.mantissa = Nat.pow 2 52 ∧
      x.exponent ≠ Double.smallestExponent then 1 else 2) : Nat) : ℚ) =
        4 * (x.mantissa - x.below) := by
    by_cases h : x.mantissa = Nat.pow 2 52 ∧ x.exponent ≠ Double.smallestExponent
    · rw [if_pos h, show x.below = 1 / 4 from if_pos h, Nat.cast_sub (by omega)]
      push_cast
      ring
    · rw [if_neg h, show x.below = 1 / 2 from if_neg h, Nat.cast_sub (by omega)]
      push_cast
      ring
  simp only [intervalOf, Nat.cast_mul, hunit, hbelow]
  push_cast [quarter_zpow]
  ring

section

variable {a : Nat} {r : ℚ}

theorem mul_le_iff (hden : 0 < den) (hd : 0 < d) (ha : (a : ℚ) = r * den) :
    a * d ≤ n * den ↔ r ≤ n / d := by
  have hden' : (0 : ℚ) < den := by exact_mod_cast hden
  have hd' : (0 : ℚ) < d := by exact_mod_cast hd
  rw [← Nat.cast_le (α := ℚ), Nat.cast_mul, Nat.cast_mul, ha, le_div_iff₀ hd', mul_right_comm,
    mul_le_mul_iff_left₀ hden']

theorem le_mul_iff (hden : 0 < den) (hd : 0 < d) (ha : (a : ℚ) = r * den) :
    n * den ≤ a * d ↔ n / d ≤ r := by
  have hden' : (0 : ℚ) < den := by exact_mod_cast hden
  have hd' : (0 : ℚ) < d := by exact_mod_cast hd
  rw [← Nat.cast_le (α := ℚ), Nat.cast_mul, Nat.cast_mul, ha, div_le_iff₀ hd', mul_right_comm,
    mul_le_mul_iff_left₀ hden']

end

/-- An interval holds what is near the double. -/
theorem holds_iff_near (hx : 0 < x.mantissa) (hd : 0 < d) :
    (intervalOf x).holds n d = true ↔ x.Near (n / d) := by
  have hden := den_intervalOf_pos x
  have hlow := low_intervalOf hx
  have hhigh := high_intervalOf x
  have hclosed : (intervalOf x).closed = decide (x.mantissa % 2 = 0) := rfl
  unfold Interval.holds
  generalize intervalOf x = i at *
  simp only [hclosed, decide_eq_true_eq]
  split <;> rename_i hparity
  · simp only [Bool.and_eq_true, decide_eq_true_eq, mul_le_iff hden hd hlow,
      le_mul_iff hden hd hhigh]
    exact ⟨fun h => ⟨h.1, h.2, fun hodd => by omega⟩, fun h => ⟨h.low, h.high⟩⟩
  · simp only [Bool.and_eq_true, decide_eq_true_eq, ← not_le, mul_le_iff hden hd hhigh,
      le_mul_iff hden hd hlow]
    simp only [not_le]
    exact ⟨fun h => ⟨h.1.le, h.2.le, fun _ => h⟩, fun h => h.inside (by omega)⟩

/-- A point of a grid is held if it is near the double. -/
theorem holds_grid_iff (hx : 0 < x.mantissa) (n : Nat) (k : Int) :
    (intervalOf x).holds (n * powNum 10 k) (powDen 10 k) = true ↔ x.Near (n * 10 ^ k) := by
  have hden := powDen_pos (by decide : 0 < 10) k
  have hpow : (powNum 10 k : ℚ) / powDen 10 k = 10 ^ k := by
    rw [powNum_eq (by decide), mul_div_cancel_right₀]
    · rfl
    · exact_mod_cast hden.ne'
  rw [holds_iff_near hx hden, Nat.cast_mul, mul_div_assoc, hpow]

theorem near_of_onGrid? {d : Decimal} (hx : 0 < x.mantissa)
    (h : (intervalOf x).onGrid? k = some d) : x.Near d.value := by
  unfold Interval.onGrid? at h
  simp only at h
  split at h
  · cases h
  · rename_i hhit _
    cases h
    exact (holds_grid_iff hx _ k).mp hhit
  · rename_i hhit
    cases h
    exact (holds_grid_iff hx _ k).mp hhit
  · rename_i hhit hhit'
    cases h
    refine (holds_grid_iff hx _ k).mp ?_
    rcases Double.nearest_cases _ _ with he | he <;> rw [he] <;> assumption

/-- The double stands between two points of a grid that follow each other. -/
theorem grid_bounds (x : Double) (k : Int) {a : Nat}
    (ha : (intervalOf x).value * powDen 10 k / ((intervalOf x).den * powNum 10 k) = a) :
    a * (10 : ℚ) ^ k ≤ x.magnitude ∧ x.magnitude < (a + 1 : Nat) * 10 ^ k := by
  have hvalue := value_intervalOf x
  have hden := den_intervalOf_pos x
  have hnum := powNum_eq (by decide : 0 < 10) k
  have hpos : 0 < (intervalOf x).den * powNum 10 k := Nat.mul_pos hden (powNum_pos (by decide) k)
  have hscale : (0 : ℚ) < (intervalOf x).den * powDen 10 k := by
    exact_mod_cast Nat.mul_pos hden (powDen_pos (by decide) k)
  generalize powNum 10 k = num at *
  generalize powDen 10 k = den at *
  generalize intervalOf x = i at *
  have hle : (a : ℚ) * (i.den * num) ≤ i.value * den := by
    exact_mod_cast ha ▸ Nat.div_mul_le_self _ _
  have hlt : (i.value : ℚ) * den < (a + 1 : Nat) * (i.den * num) := by
    have := Nat.lt_mul_div_succ (i.value * den) hpos
    rw [ha, mul_comm (i.den * num)] at this
    exact_mod_cast this
  rw [hvalue, hnum, Nat.cast_ofNat] at hle hlt
  exact ⟨le_of_mul_le_mul_right (by linarith) hscale,
    lt_of_mul_lt_mul_right (by linarith) hscale.le⟩

theorem near_of_lt {v : ℚ} (hlow : (x.mantissa - x.below) * 2 ^ x.exponent < v)
    (hhigh : v < (x.mantissa + 1 / 2) * 2 ^ x.exponent) : x.Near v :=
  ⟨hlow.le, hhigh.le, fun _ => ⟨hlow, hhigh⟩⟩

/-- Of two points around a double that are less than its unit apart one is near it. -/
theorem near_or_near {a b : ℚ} (hx : x.Valid)
    (hab : (b - a) * 10 ^ 16 ≤ x.magnitude) (ha : a ≤ x.magnitude) (hb : x.magnitude < b) :
    x.Near a ∨ x.Near b := by
  unfold Double.magnitude at hab ha hb
  have hunit : (0 : ℚ) < 2 ^ x.exponent := by positivity
  have hbits : (x.mantissa : ℚ) < 2 ^ 53 := by exact_mod_cast hx.bits
  have hsize : (x.mantissa : ℚ) * 2 ^ x.exponent < 2 ^ 53 * 2 ^ x.exponent := by gcongr
  by_cases h : x.mantissa = 2 ^ 52 ∧ x.exponent ≠ Double.smallestExponent
  · have hbelow : x.below = 1 / 4 := if_pos h
    rw [h.1, Nat.cast_pow, Nat.cast_ofNat] at hab ha hb
    refine .inr (near_of_lt ?_ ?_)
    · rw [h.1, hbelow]
      push_cast
      linarith
    · rw [h.1]
      push_cast
      linarith
  · have hbelow : x.below = 1 / 2 := if_neg h
    by_cases hnear : (x.mantissa - 1 / 2) * 2 ^ x.exponent < a
    · exact .inl (near_of_lt (by rwa [hbelow]) (by linarith))
    · exact .inr (near_of_lt (by rw [hbelow]; linarith) (by linarith))

/-- A grid with sixteen places behind the first one of the double has a point near it. -/
theorem exists_onGrid? (hx : x.Valid) (hm : 0 < x.mantissa)
    (hk : (10 : ℚ) ^ (k + 16) ≤ x.magnitude) : ∃ d, (intervalOf x).onGrid? k = some d := by
  unfold Interval.onGrid?
  simp only
  generalize ha : (intervalOf x).value * _ / _ = a
  obtain ⟨hle, hlt⟩ := grid_bounds x k ha
  have hstep : (((a + 1 : Nat) : ℚ) * 10 ^ k - a * 10 ^ k) * 10 ^ 16 ≤ x.magnitude := by
    refine le_of_eq_of_le ?_ hk
    rw [zpow_add₀ (by norm_num)]
    push_cast
    ring
  rcases near_or_near hx hstep hle hlt with h | h
  · rw [(holds_grid_iff hm a k).mpr h]
    cases (intervalOf x).holds ((a + 1) * powNum 10 k) (powDen 10 k) <;> exact ⟨_, rfl⟩
  · rw [(holds_grid_iff hm (a + 1) k).mpr h]
    cases (intervalOf x).holds (a * powNum 10 k) (powDen 10 k) <;> exact ⟨_, rfl⟩

theorem pow_digitCount_le (hn : 0 < n) : 10 ^ (digitCount n - 1) ≤ n := by
  rcases Nat.lt_or_ge 1 (digitCount n) with h | h
  · have hmany := mt (Nat.length_toDigits_le_iff (n := n) (by decide : 1 < 10)
      (Nat.sub_pos_of_lt h)).mpr
    unfold digitCount at h hmany ⊢
    omega
  · rw [Nat.sub_eq_zero_of_le h]
    exact hn

theorem lt_pow_digitCount (n : Nat) : n < 10 ^ digitCount n :=
  (Nat.length_toDigits_le_iff (by decide) Nat.length_toDigits_pos).mp (Nat.le_refl _)

/-- The leading power of ten is not above the quotient. -/
theorem leadingPower_le (hn : 0 < num) (hd : 0 < den) :
    (10 : ℚ) ^ leadingPower num den ≤ num / den := by
  have hden : (0 : ℚ) < den := by exact_mod_cast hd
  set p : Int := (digitCount num : Int) - digitCount den with hp
  -- One power lower is right whatever the digits are.
  have hlower : (10 : ℚ) ^ (p - 1) ≤ num / den := by
    have hdigits : 0 < digitCount num := Nat.length_toDigits_pos
    rw [le_div_iff₀ hden]
    calc (10 : ℚ) ^ (p - 1) * den ≤ 10 ^ (p - 1) * 10 ^ digitCount den := by
          gcongr
          exact_mod_cast (lt_pow_digitCount den).le
      _ = 10 ^ (digitCount num - 1) := by
          rw [← zpow_natCast, ← zpow_natCast, ← zpow_add₀ (by norm_num)]
          congr 1
          omega
      _ ≤ num := by exact_mod_cast pow_digitCount_le hn
  unfold leadingPower
  simp only [← hp]
  split
  · split
    · rename_i hpos h
      obtain ⟨j, hj⟩ := Int.eq_ofNat_of_zero_le hpos
      rw [hj, Int.toNat_natCast] at h
      rw [hj, zpow_natCast, le_div_iff₀ hden, mul_comm]
      exact_mod_cast h
    · exact hlower
  · split
    · rename_i hneg h
      obtain ⟨j, hj⟩ : ∃ j : Nat, p = -j := ⟨(-p).toNat, by omega⟩
      rw [hj, neg_neg, Int.toNat_natCast] at h
      rw [hj, zpow_neg, zpow_natCast, le_div_iff₀ hden, inv_mul_le_iff₀ (by positivity), mul_comm]
      exact_mod_cast h
    · exact hlower

/-- A hit is found on the grid for seventeen digits, if not before. -/
theorem near_firstHit {leading : Int} (hx : x.Valid) (hm : 0 < x.mantissa)
    (hleading : (10 : ℚ) ^ leading ≤ x.magnitude) {count tries : Nat}
    (htries : 0 < tries) (hlast : count + tries = 18) :
    x.Near ((intervalOf x).firstHit leading count tries).value := by
  induction tries generalizing count with
  | zero => cases htries
  | succ tries ih =>
    rw [Interval.firstHit]
    split
    · rename_i d hd
      exact near_of_onGrid? hm hd
    · rename_i hnone
      refine ih (Nat.pos_of_ne_zero fun hzero => ?_) (by omega)
      have hgrid : leading - count + 1 + 16 = leading := by omega
      obtain ⟨d, hd⟩ := exists_onGrid? hx hm (hgrid.symm ▸ hleading)
      rw [hnone] at hd
      cases hd

theorem trimZeros_value (digits : Nat) (exponent : Int) :
    (trimZeros digits exponent).value = digits * 10 ^ exponent := by
  fun_induction trimZeros digits exponent with
  | case1 digits exponent h ih =>
    rw [ih, zpow_add_one₀ (by norm_num)]
    have hdigits : (digits : ℚ) = (digits / 10 : Nat) * 10 := by
      exact_mod_cast (Nat.div_mul_cancel (Nat.dvd_of_mod_eq_zero h.2)).symm
    rw [hdigits]
    ring
  | case2 digits exponent h => rfl

/-- The shortest decimal of a double is near it. -/
theorem near_shortest (hx : x.Valid) (hm : 0 < x.mantissa) : x.Near (shortest x).value := by
  have hden := den_intervalOf_pos x
  have hvalue := value_intervalOf x
  have hratio : ((intervalOf x).value : ℚ) / (intervalOf x).den = x.magnitude := by
    rw [hvalue, mul_div_cancel_right₀]
    exact_mod_cast hden.ne'
  have hpos : 0 < (intervalOf x).value := by
    have : (0 : ℚ) < (intervalOf x).value := by
      rw [hvalue, Double.magnitude]
      positivity
    exact_mod_cast this
  have hleading := leadingPower_le hpos hden
  rw [hratio] at hleading
  have hzero : x.isZero = false := by simpa [Double.isZero] using hm.ne'
  have hshortest : (shortest x).value = ((intervalOf x).firstHit
      (leadingPower (intervalOf x).value (intervalOf x).den) 1 17).value := by
    rw [shortest, hzero]
    exact trimZeros_value _ _
  rw [hshortest]
  exact near_firstHit hx hm hleading (by decide) rfl

theorem digits_pos_of_near {d : Decimal} (hm : 0 < x.mantissa) (h : x.Near d.value) :
    0 < d.digits := by
  refine Nat.pos_of_ne_zero fun hzero => ?_
  have hm' : (1 : ℚ) ≤ x.mantissa := by exact_mod_cast hm
  have hbelow : (0 : ℚ) < (x.mantissa - x.below) * 2 ^ x.exponent :=
    mul_pos (by linarith [x.below_le]) (by positivity)
  have hlow := h.low
  rw [value, hzero, Nat.cast_zero, zero_mul] at hlow
  linarith

end Decimal

end ApiContract
