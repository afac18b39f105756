import Mathlib.Tactic.Ring

namespace ApiContract

theorem toList_toString (n : Nat) : (toString n).toList = Nat.toDigits 10 n := by
  rw [Nat.toString_eq_ofList_toDigits, String.toList_ofList]

theorem isDigit_toDigits (n : Nat) : ∀ c ∈ Nat.toDigits 10 n, c.isDigit = true := fun _ hc =>
  Nat.isDigit_of_mem_toDigits (by decide) (by decide) hc

theorem digitChar_of_isDigit {c : Char} (h : c.isDigit = true) :
    c.toNat - 48 < 10 ∧ Nat.digitChar (c.toNat - 48) = c := by
  have hc : 48 ≤ c.toNat ∧ c.toNat ≤ 57 := by
    simpa [Char.isDigit, UInt32.le_iff_toNat_le] using h
  have hlt : c.toNat - 48 < 10 := by omega
  refine ⟨hlt, Char.toNat_inj.mp ?_⟩
  rw [Nat.toNat_digitChar_of_lt_ten hlt]
  omega

/-- Digits behind those of a positive number make up the digits of the number that they spell
together. -/
theorem toDigits_append {ds : List Char} {n : Nat} (hn : 0 < n)
    (hd : ∀ c ∈ ds, c.isDigit = true) :
    Nat.toDigits 10 n ++ ds = Nat.toDigits 10 (Nat.ofDigitChars 10 ds n) := by
  induction ds generalizing n with
  | nil => simp
  | cons c ds ih =>
    obtain ⟨hc, hds⟩ := List.forall_mem_cons.mp hd
    obtain ⟨hlt, hchar⟩ := digitChar_of_isDigit hc
    have hpos : 0 < 10 * n + (c.toNat - 48) := by omega
    have hone := Nat.toDigits_append_toDigits (by decide : 1 < 10) hn hlt
    rw [Nat.toDigits_of_lt_base hlt, hchar] at hone
    calc Nat.toDigits 10 n ++ c :: ds
        = Nat.toDigits 10 n ++ [c] ++ ds := by simp
      _ = Nat.toDigits 10 (10 * n + (c.toNat - 48)) ++ ds := by rw [hone]
      _ = Nat.toDigits 10 (Nat.ofDigitChars 10 (c :: ds) n) := ih hpos hds

/-- Digits are those of the number that they spell, behind zeros. -/
theorem exists_zeros {ds : List Char} (hne : ds ≠ []) (hd : ∀ c ∈ ds, c.isDigit = true) :
    ∃ zeros, ds = List.replicate zeros '0' ++ Nat.toDigits 10 (Nat.ofDigitChars 10 ds 0) := by
  induction ds with
  | nil => exact absurd rfl hne
  | cons c ds ih =>
    obtain ⟨hc, hds⟩ := List.forall_mem_cons.mp hd
    obtain ⟨hlt, hchar⟩ := digitChar_of_isDigit hc
    by_cases hzero : c = '0'
    · subst hzero
      by_cases hlast : ds = []
      · subst hlast
        exact ⟨0, rfl⟩
      · obtain ⟨zeros, hz⟩ := ih hlast hds
        refine ⟨zeros + 1, ?_⟩
        rw [List.replicate_succ, List.cons_append]
        exact congrArg _ hz
    · have hpos : 0 < c.toNat - 48 := by
        apply Nat.pos_of_ne_zero
        intro hnone
        rw [hnone] at hchar
        exact hzero hchar.symm
      have hall := toDigits_append hpos hds
      rw [Nat.toDigits_of_lt_base hlt, hchar] at hall
      refine ⟨0, ?_⟩
      rw [List.replicate_zero, List.nil_append, Nat.ofDigitChars_cons, Nat.mul_zero, Nat.zero_add]
      exact hall

theorem ofDigitChars_zeros (zeros : Nat) (ds : List Char) :
    Nat.ofDigitChars 10 (List.replicate zeros '0' ++ ds) 0 = Nat.ofDigitChars 10 ds 0 := by
  induction zeros with
  | zero => rfl
  | succ zeros ih => exact ih

/-- Zeros behind the digits of a number multiply it by ten. -/
theorem ofDigitChars_replicate (zeros n : Nat) :
    Nat.ofDigitChars 10 (List.replicate zeros '0') n = n * 10 ^ zeros := by
  induction zeros generalizing n with
  | zero => simp [Nat.ofDigitChars]
  | succ zeros ih =>
    rw [List.replicate_succ, Nat.ofDigitChars_cons, ih, Nat.sub_self, Nat.add_zero]
    ring

/-- The digits of a positive number start with one that is not zero. -/
theorem exists_toDigits_eq_cons {n : Nat} (hn : 0 < n) :
    ∃ c cs, Nat.toDigits 10 n = c :: cs ∧ c ≠ '0' := by
  induction n using Nat.strong_induction_on with
  | _ n ih =>
    rcases Nat.lt_or_ge n 10 with h | h
    · have hone : ∀ d < 10, 0 < d → Nat.digitChar d ≠ '0' := by decide
      exact ⟨_, [], Nat.toDigits_of_lt_base h, hone n h hn⟩
    · obtain ⟨c, cs, hcs, hc⟩ := ih (n / 10) (by omega) (by omega)
      have happend := Nat.toDigits_append_toDigits (by decide : 1 < 10)
        (show 0 < n / 10 by omega) (Nat.mod_lt n (by decide))
      rw [Nat.div_add_mod, hcs] at happend
      exact ⟨c, _, happend.symm, hc⟩

end ApiContract
