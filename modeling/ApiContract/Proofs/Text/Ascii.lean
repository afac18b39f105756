import ApiContract.Proofs.Text.Letter
import ApiContract.Text.Alphanumeric
import ApiContract.Text.LetterCase

namespace ApiContract.Text

variable {c : Char}

theorem toNat_ofNat {n : Nat} (h : n.isValidChar) : (Char.ofNat n).toNat = n := by
  rw [Char.ofNat, dif_pos h]
  rfl

theorem toNat_toUpper : c.toUpper.toNat =
    if 0x61 ≤ c.toNat ∧ c.toNat ≤ 0x7a then c.toNat - 0x20 else c.toNat := by
  delta Char.toUpper
  by_cases h : 0x61 ≤ c.toNat ∧ c.toNat ≤ 0x7a
  · have hsum : (c.val + 4294967264).toNat = c.toNat - 0x20 := by
      rw [UInt32.toNat_add, Char.toNat_val]
      simp
      omega
    simpa [UInt32.le_iff_toNat_le, h] using hsum
  · simp [UInt32.le_iff_toNat_le, h]

theorem toNat_toLower : c.toLower.toNat =
    if 0x41 ≤ c.toNat ∧ c.toNat ≤ 0x5a then c.toNat + 0x20 else c.toNat := by
  delta Char.toLower
  by_cases h : 0x41 ≤ c.toNat ∧ c.toNat ≤ 0x5a
  · have hsum : (c.val + 32).toNat = c.toNat + 0x20 := by
      rw [UInt32.toNat_add, Char.toNat_val]
      simp
      omega
    simpa [UInt32.le_iff_toNat_le, h] using hsum
  · simp [UInt32.le_iff_toNat_le, h]

theorem isAlpha_iff : c.isAlpha ↔
    0x41 ≤ c.toNat ∧ c.toNat ≤ 0x5a ∨ 0x61 ≤ c.toNat ∧ c.toNat ≤ 0x7a := by
  delta Char.isAlpha Char.isUpper Char.isLower
  simp [UInt32.le_iff_toNat_le]

theorem isLower_iff : c.isLower ↔ 0x61 ≤ c.toNat ∧ c.toNat ≤ 0x7a := by
  delta Char.isLower
  simp [UInt32.le_iff_toNat_le]

theorem isUpper_iff : c.isUpper ↔ 0x41 ≤ c.toNat ∧ c.toNat ≤ 0x5a := by
  delta Char.isUpper
  simp [UInt32.le_iff_toNat_le]

theorem isDigit_iff : c.isDigit ↔ 0x30 ≤ c.toNat ∧ c.toNat ≤ 0x39 := Char.isDigit_iff_toNat

theorem isAlpha_toUpper : c.toUpper.isAlpha = c.isAlpha := by
  rw [Bool.eq_iff_iff, isAlpha_iff, isAlpha_iff, toNat_toUpper]
  split <;> omega

theorem isAlpha_toLower : c.toLower.isAlpha = c.isAlpha := by
  rw [Bool.eq_iff_iff, isAlpha_iff, isAlpha_iff, toNat_toLower]
  split <;> omega

theorem toUpper_eq_self (h : ¬ c.isAlpha) : c.toUpper = c := by
  rw [isAlpha_iff] at h
  rw [← Char.toNat_inj, toNat_toUpper, if_neg (by omega)]

theorem toLower_eq_self (h : ¬ c.isAlpha) : c.toLower = c := by
  rw [isAlpha_iff] at h
  rw [← Char.toNat_inj, toNat_toLower, if_neg (by omega)]

theorem not_covers_of_lt {s : Stretch} {n : Nat} (h : n < s.first) : s.covers n = false := by
  simp [Stretch.covers, Nat.not_le_of_lt h]

/-- Only the stretches matter that begin in ASCII. -/
theorem contains_take {t : Table} (n : Nat) (h : (t.drop n).all (0x80 ≤ ·.first))
    (hc : c.toNat < 0x80) : t.contains c = Table.contains (t.take n) c := by
  have hrest : Table.contains (t.drop n) c = false := by
    apply List.any_eq_false.mpr
    intro s hs
    have hfirst : 0x80 ≤ s.first := by simpa using List.all_eq_true.mp h s hs
    simp [not_covers_of_lt (Nat.lt_of_lt_of_le hc hfirst)]
  have hsplit : t.contains c = (Table.contains (t.take n) c || Table.contains (t.drop n) c) := by
    rw [Table.contains, Table.contains, Table.contains, ← List.any_append, List.take_append_drop]
  rw [hsplit, hrest, Bool.or_false]

theorem shift_take {shifts : List Shift} (n : Nat)
    (h : (shifts.drop n).all (0x80 ≤ ·.stretch.first)) (hc : c.toNat < 0x80) :
    shift shifts c = shift (shifts.take n) c := by
  have hrest : (shifts.drop n).find? (·.stretch.covers c.toNat) = none := by
    apply List.find?_eq_none.mpr
    intro s hs
    have hfirst : 0x80 ≤ s.stretch.first := by simpa using List.all_eq_true.mp h s hs
    simp [not_covers_of_lt (Nat.lt_of_lt_of_le hc hfirst)]
  have hsplit : shifts.find? (·.stretch.covers c.toNat) =
      (shifts.take n ++ shifts.drop n).find? (·.stretch.covers c.toNat) := by
    rw [List.take_append_drop]
  rw [shift, shift, hsplit, List.find?_append, hrest, Option.or_none]

theorem lookup_eq_none {expansions : List (Nat × List Nat)} (h : expansions.all (0x80 ≤ ·.1))
    (hc : c.toNat < 0x80) : expansions.lookup c.toNat = none := by
  apply List.lookup_eq_none_iff.mpr
  intro p hp
  have hkey : 0x80 ≤ p.1 := by simpa using List.all_eq_true.mp h p hp
  simp
  omega

set_option maxRecDepth 8192 in
theorem isAlphanumeric_of_ascii (hc : c.toNat < 0x80) : isAlphanumeric c = c.isAlphanum := by
  rw [isAlphanumeric, contains_take 3 (by decide) hc, Bool.eq_iff_iff]
  simp [alphanumericTable, Table.contains, Stretch.covers, Nat.mod_one, Char.isAlphanum,
    isAlpha_iff, Char.isDigit_iff_toNat]
  omega

set_option maxRecDepth 8192 in
theorem isLetter_of_ascii (hc : c.toNat < 0x80) : isLetter c = c.isAlpha := by
  rw [isLetter, contains_take 2 (by decide) hc, Bool.eq_iff_iff]
  simp [letterTable, Table.contains, Stretch.covers, Nat.mod_one, isAlpha_iff]

set_option maxRecDepth 8192 in
theorem isDecimal_of_ascii (hc : c.toNat < 0x80) : isDecimal c = c.isDigit := by
  rw [isDecimal, contains_take 1 (by decide) hc, Bool.eq_iff_iff]
  simp [decimalTable, Table.contains, Stretch.covers, Nat.mod_one, Char.isDigit_iff_toNat]

theorem isLetter_of_isAlpha (h : c.isAlpha) : isLetter c := by
  have hrange := isAlpha_iff.mp h
  rw [isLetter_of_ascii (by omega), h]

theorem isDecimal_of_isDigit (h : c.isDigit) : isDecimal c := by
  have hrange : 0x30 ≤ c.toNat ∧ c.toNat ≤ 0x39 := Char.isDigit_iff_toNat.mp h
  rw [isDecimal_of_ascii (by omega), h]

set_option maxRecDepth 8192 in
theorem toUppercase_of_ascii (hc : c.toNat < 0x80) : toUppercase c = [c.toUpper] := by
  have htake : uppercaseShifts.take 1 = [⟨⟨0x61, 0x7a, 1⟩, -0x20⟩] := rfl
  rw [toUppercase, lookup_eq_none (by decide) hc]
  dsimp only
  rw [shift_take 1 (by decide) hc, htake, List.singleton_inj, ← Char.toNat_inj, toNat_toUpper,
    shift]
  by_cases h : 0x61 ≤ c.toNat ∧ c.toNat ≤ 0x7a
  · have hdistance : ((c.toNat : Int) + -0x20).toNat = c.toNat - 0x20 := by omega
    have hmoved : (Char.ofNat (c.toNat - 0x20)).toNat = c.toNat - 0x20 :=
      toNat_ofNat (Or.inl (by omega))
    simpa [Stretch.covers, Nat.mod_one, h, hdistance] using hmoved
  · simp [Stretch.covers, Nat.mod_one, h]

set_option maxRecDepth 8192 in
theorem toLowercase_of_ascii (hc : c.toNat < 0x80) : toLowercase c = [c.toLower] := by
  have htake : lowercaseShifts.take 1 = [⟨⟨0x41, 0x5a, 1⟩, 0x20⟩] := rfl
  rw [toLowercase, lookup_eq_none (by decide) hc]
  dsimp only
  rw [shift_take 1 (by decide) hc, htake, List.singleton_inj, ← Char.toNat_inj, toNat_toLower,
    shift]
  by_cases h : 0x41 ≤ c.toNat ∧ c.toNat ≤ 0x5a
  · have hdistance : ((c.toNat : Int) + 0x20).toNat = c.toNat + 0x20 := by omega
    have hmoved : (Char.ofNat (c.toNat + 0x20)).toNat = c.toNat + 0x20 :=
      toNat_ofNat (Or.inl (by omega))
    simpa [Stretch.covers, Nat.mod_one, h, hdistance] using hmoved
  · simp [Stretch.covers, Nat.mod_one, h]

end ApiContract.Text
