import ApiContract.Json.Basic
import ApiContract.Json.Numeral
import ApiContract.Proofs.Decimal.Rounding

namespace ApiContract

/-- A number that there is: an integer of 64 bits, signed or unsigned, or a double. -/
def Number.Valid : Number → Prop
  | integer n => -2 ^ 63 ≤ n ∧ n < 2 ^ 64
  | double x => x.Valid

namespace Json.Numeral

variable {x y : Double} {n : Number}

theorem ratio_power_pos : ∀ k ≤ 308, 0 < (power k).ratio.1 := by decide +kernel

theorem valid_scale {exponent : Int} (hx : x.Valid) (h : scale x exponent = .ok y) : y.Valid := by
  have hdiv {x : Double} {k : Nat} (hk : k ≤ 308) : ((x.div? (power k)).getD .zero).Valid :=
    Double.valid_getD fun _ => Double.valid_div? (ratio_power_pos k hk)
  fun_induction scale x exponent with
  | case1 x exponent hk hpos y' hy =>
    cases h
    exact Double.valid_mul? hy
  | case2 | case5 => cases h
  | case3 x exponent hk hneg =>
    cases h
    exact hdiv hk
  | case4 =>
    cases h
    exact hx
  | case6 x exponent hk hzero hneg ih => exact ih (hdiv (Nat.le_refl 308)) h

theorem valid_double {negative : Bool} {significand : Nat} {exponent : Int}
    (h : double negative significand exponent = .ok n) : n.Valid := by
  cases hx : scale ((Double.ofNat? significand).getD .zero) exponent with
  | error fault =>
    rw [double, hx] at h
    cases h
  | ok x =>
    have hvalid := valid_scale (Double.valid_getD fun _ => Double.valid_ofNat?) hx
    rw [double, hx] at h
    cases h
    cases negative
    · exact hvalid
    · exact hvalid.negate

theorem valid_withExponent {negative positive : Bool} {significand : Nat} {start : Int}
    {digits : List Nat} (h : withExponent negative significand start positive digits = .ok n) :
    n.Valid := by
  unfold withExponent at h
  split at h
  · exact valid_double h
  · split at h <;> cases h
    exact Double.valid_zero negative

theorem absorb_le {limit m : Nat} (hm : m ≤ limit) (digits : List Nat) :
    (absorb limit m digits).1 ≤ limit := by
  fun_induction absorb limit m digits with
  | case1 => exact hm
  | case2 m d rest h ih => exact ih h
  | case3 => exact hm

/-- Whatever a numeral is read as is a number that there is. -/
theorem valid_value {numeral : Numeral} (h : numeral.value = .ok n) : n.Valid := by
  have hle := absorb_le (Nat.zero_le largestUnsigned) numeral.whole
  unfold value at h
  split at h
  rename_i significand uncounted hfound
  rw [hfound] at hle
  split at h
  · split at h
    · cases h
      have hlt : significand < 2 ^ 64 := Nat.lt_of_le_of_lt hle (by decide)
      exact ⟨by omega, by exact_mod_cast hlt⟩
    · split at h
      · rename_i hsigned
        cases h
        exact ⟨by omega, by omega⟩
      · exact valid_double h
  · split at h
    rename_i significand' ignored hfound'
    simp only at h
    split at h
    · exact valid_double h
    · exact valid_withExponent h

end Json.Numeral

end ApiContract
