import ApiContract.Proofs.Decimal.Shortest
import ApiContract.Proofs.Json.Numeral
import ApiContract.Proofs.Json.Tokens
import ApiContract.Proofs.Text.Digits

namespace ApiContract

namespace Json

namespace Numeral

/-- The number that digits spell, the most significant one first. -/
def spelled (ds : List Nat) : Nat := ds.foldl (fun n d => 10 * n + d) 0

/-- The power of ten that a numeral gives after its digits. -/
def givenPower (n : Numeral) : Int :=
  match n.exponent with
  | none => 0
  | some (true, digits) => spelled digits
  | some (false, digits) => -spelled digits

/-- The double nearest to what the digits and the exponent say. -/
def nearestDouble? (n : Numeral) : Option Double :=
  Double.ofDecimal? n.negative (spelled (n.whole ++ n.fraction)) (n.givenPower - n.fraction.length)

/-- A numeral without fraction and exponent is an integer, if that has 64 bits at most. -/
def integer? (n : Numeral) : Option Int :=
  if n.fraction ≠ [] ∨ n.exponent.isSome then none
  else if ¬ n.negative then
    if spelled n.whole ≤ largestUnsigned then some (spelled n.whole) else none
  else if 0 < spelled n.whole ∧ spelled n.whole ≤ 0x8000_0000_0000_0000 then
    some (-spelled n.whole)
  else none

/-- What a numeral stands for: the integer that it is, or else the double nearest to it. -/
def nearest (n : Numeral) : Except Fault Number :=
  match n.integer?, n.nearestDouble? with
  | some k, _ => .ok (.integer k)
  | none, some x => .ok (.double x)
  | none, none => .error .numberOutOfRange

end Numeral

/-- The characters that a numeral is spelled with. -/
structure Spelling where
  negative : Bool
  whole : List Char
  fraction : List Char
  /-- The exponent's sign, positive or not, and its digits. -/
  exponent : Option (Bool × List Char)

namespace Spelling

def fractionText (s : Spelling) : List Char := if s.fraction = [] then [] else '.' :: s.fraction

def exponentText (s : Spelling) : List Char :=
  match s.exponent with
  | none => []
  | some (positive, digits) => 'e' :: (if positive then '+' else '-') :: digits

def text (s : Spelling) : List Char :=
  (if s.negative then ['-'] else []) ++ (s.whole ++ (s.fractionText ++ s.exponentText))

def numeral (s : Spelling) : Numeral where
  negative := s.negative
  whole := s.whole.map digitValue
  fraction := s.fraction.map digitValue
  exponent := s.exponent.map fun p => (p.1, p.2.map digitValue)

/-- The digits are digits, and no zero stands before others. -/
structure Proper (s : Spelling) : Prop where
  whole : ∀ c ∈ s.whole, c.isDigit = true
  leading : s.whole = ['0'] ∨ ∃ c cs, s.whole = c :: cs ∧ c ≠ '0'
  fraction : ∀ c ∈ s.fraction, c.isDigit = true
  exponent : ∀ p ∈ s.exponent, p.2 ≠ [] ∧ ∀ c ∈ p.2, c.isDigit = true

variable {s : Spelling} {r : List Char}

theorem takeDigits_digits {cs : List Char} (h : ∀ c ∈ cs, c.isDigit = true)
    (hr : ∀ c ∈ r.head?, c.isDigit = false) : takeDigits (cs ++ r) = (cs.map digitValue, r) := by
  unfold takeDigits
  rw [List.takeWhile_append_of_pos h, List.dropWhile_append_of_pos h]
  cases r with
  | nil => simp
  | cons c r => simp [hr c rfl]

theorem digitValue_ne_zero {c : Char} (h : c.isDigit = true) (hc : c ≠ '0') : digitValue c ≠ 0 := by
  intro hzero
  have hchar := (digitChar_of_isDigit h).2
  rw [show c.toNat - 48 = 0 from hzero] at hchar
  exact hc hchar.symm

theorem scanWhole_whole (h : s.Proper) (hr : ∀ c ∈ r.head?, c.isDigit = false) :
    scanWhole true (s.whole ++ r) = .ok (s.whole.map digitValue, r) := by
  rw [scanWhole, takeDigits_digits h.whole hr]
  rcases h.leading with he | ⟨c, cs, he, hc⟩
  · rw [he]
    rfl
  · have hne : digitValue c ≠ 0 := digitValue_ne_zero (h.whole c (by simp [he])) hc
    rw [he, List.map_cons]
    split
    · rename_i heq
      cases heq
    · rename_i heq
      exact absurd (List.cons.inj (Prod.mk.inj heq).1).1 hne
    · rfl

theorem head?_exponentText (s : Spelling) : ∀ c ∈ s.exponentText.head?, c = 'e' := by
  unfold exponentText
  split <;> simp

theorem scanFraction_fractionText (h : s.Proper) :
    scanFraction true (s.fractionText ++ s.exponentText) =
      .ok (s.fraction.map digitValue, s.exponentText) := by
  have hend : ∀ c ∈ s.exponentText.head?, c.isDigit = false := fun c hc => by
    rw [head?_exponentText s c hc]
    rfl
  unfold fractionText
  split
  · rename_i he
    rw [he, List.nil_append, scanFraction]
    · rfl
    · intro tail htail
      have := head?_exponentText s '.' (by rw [htail]; rfl)
      exact absurd this (by decide)
  · rename_i hne
    rw [List.cons_append, scanFraction, takeDigits_digits h.fraction hend]
    split
    · rename_i he
      exact absurd (List.map_eq_nil_iff.mp (Prod.mk.inj he).1) hne
    · rfl

theorem scanExponent_exponentText (h : s.Proper) :
    scanExponent true s.exponentText =
      .ok (s.exponent.map fun p => (p.1, p.2.map digitValue), []) := by
  unfold exponentText
  split
  · rename_i he
    rw [he]
    rfl
  · rename_i positive digits he
    obtain ⟨hne, hdigits⟩ := h.exponent _ he
    have htake := takeDigits_digits hdigits (r := []) (by simp)
    rw [List.append_nil] at htake
    have hsign : scanSign ((if positive then '+' else '-') :: digits) = (positive, digits) := by
      cases positive <;> rfl
    rw [he, scanExponent]
    simp only [hsign, htake]
    split
    · rename_i heq
      exact absurd (List.map_eq_nil_iff.mp (Prod.mk.inj heq).1) hne
    · rename_i heq
      cases heq
      rfl

theorem Proper.exists_whole (h : s.Proper) : ∃ c cs, s.whole = c :: cs ∧ c.isDigit = true := by
  rcases h.leading with he | ⟨c, cs, he, -⟩
  · exact ⟨'0', [], he, rfl⟩
  · exact ⟨c, cs, he, h.whole c (by simp [he])⟩

theorem scanMinus_text (h : s.Proper) :
    scanMinus s.text = (s.negative, s.whole ++ (s.fractionText ++ s.exponentText)) := by
  unfold text
  split <;> rename_i hneg
  · rw [hneg]
    rfl
  · obtain ⟨c, cs, he, hc⟩ := h.exists_whole
    have hminus : c ≠ '-' := by
      rintro rfl
      exact absurd hc (by decide)
    simp [he, scanMinus, hminus, hneg]

/-- A proper spelling is scanned to the end. -/
theorem scanNumeral_text (h : s.Proper) : scanNumeral true s.text = .ok (s.numeral, []) := by
  have hbehind : ∀ c ∈ (s.fractionText ++ s.exponentText).head?, c.isDigit = false := by
    intro c hc
    unfold fractionText at hc
    split at hc
    · rw [List.nil_append] at hc
      rw [head?_exponentText s c hc]
      rfl
    · cases hc
      rfl
  rw [scanNumeral, scanMinus_text h]
  simp only [scanWhole_whole h hbehind, scanFraction_fractionText h, scanExponent_exponentText h,
    bind, Except.bind]
  rfl

/-- The power of ten that is spelled after the digits. -/
def power (s : Spelling) : Int :=
  match s.exponent with
  | none => 0
  | some (true, digits) => Nat.ofDigitChars 10 digits 0
  | some (false, digits) => -Nat.ofDigitChars 10 digits 0

/-- The decimal that is spelled, without its sign. -/
def decimal (s : Spelling) : Decimal :=
  ⟨Nat.ofDigitChars 10 (s.whole ++ s.fraction) 0, s.power - s.fraction.length⟩

theorem spelled_map (cs : List Char) :
    Numeral.spelled (cs.map digitValue) = Nat.ofDigitChars 10 cs 0 := by
  simp [Numeral.spelled, Nat.ofDigitChars, List.foldl_map, digitValue]

theorem nearestDouble?_numeral (s : Spelling) :
    s.numeral.nearestDouble? =
      Double.ofDecimal? s.negative s.decimal.digits s.decimal.exponent := by
  have hpower : s.numeral.givenPower = s.power := by
    unfold Numeral.givenPower numeral power
    rcases s.exponent with _ | ⟨_ | _, digits⟩ <;> simp [spelled_map]
  rw [Numeral.nearestDouble?, hpower]
  simp [numeral, decimal, ← List.map_append, spelled_map]

/-- A spelling with a point or an exponent is read as the double that its decimal is near. -/
theorem readBy_nearest {x : Double} (h : s.Proper) (hpoint : s.fraction ≠ [] ∨ s.exponent.isSome)
    (htext : x.text = s.text) (hx : Double.ofDecimal? s.negative s.decimal.digits
      s.decimal.exponent = some x) : (Number.double x).ReadBy Numeral.nearest := by
  have hinteger : s.numeral.integer? = none :=
    if_pos (by simpa [numeral] using hpoint)
  refine ⟨s.numeral, ?_, ?_⟩
  · rw [Number.text, htext, scanNumeral_text h]
  · rw [Numeral.nearest, hinteger, nearestDouble?_numeral, hx]

end Spelling

end Json

namespace Double

open Json

/-- The characters spell a number with a point or an exponent. -/
def Spells (negative : Bool) (cs : List Char) (v : ℚ) : Prop :=
  ∃ s : Spelling, s.Proper ∧ (s.fraction ≠ [] ∨ s.exponent.isSome) ∧ s.negative = negative ∧
    s.decimal.value = v ∧ s.text = (if negative then ['-'] else []) ++ cs

/-- Digits of which the first is not a zero. -/
structure Leads (digits : List Char) : Prop where
  isDigit : ∀ c ∈ digits, c.isDigit = true
  first : ∃ c cs, digits = c :: cs ∧ c ≠ '0'

theorem leads_toDigits {n : Nat} (hn : 0 < n) : Leads (Nat.toDigits 10 n) :=
  ⟨isDigit_toDigits n, exists_toDigits_eq_cons hn⟩

theorem isDigit_replicate (j : Nat) : ∀ c ∈ List.replicate j '0', c.isDigit = true := by
  simp [List.mem_replicate]

section

variable {digits : List Char} (negative : Bool) (h : Leads digits)

include h

/-- Digits and zeros with the point behind them. -/
theorem spells_behind (j : Nat) :
    Spells negative (digits ++ List.replicate j '0' ++ ['.', '0'])
      (Nat.ofDigitChars 10 digits 0 * 10 ^ (j : Int)) := by
  obtain ⟨hdigits, c, cs, hcs, hc⟩ := h
  refine ⟨⟨negative, digits ++ List.replicate j '0', ['0'], none⟩,
    ⟨?_, .inr ⟨c, _, by rw [hcs]; rfl, hc⟩, by simp, by simp⟩, .inl (by simp), rfl, ?_, ?_⟩
  · exact List.forall_mem_append.mpr ⟨hdigits, isDigit_replicate j⟩
  · have hspelled : Nat.ofDigitChars 10 (digits ++ List.replicate j '0' ++ ['0']) 0 =
        Nat.ofDigitChars 10 digits 0 * 10 ^ j * 10 := by
      rw [Nat.ofDigitChars_append, Nat.ofDigitChars_append, ofDigitChars_replicate]
      exact Nat.mul_comm _ _
    rw [Decimal.value, Spelling.decimal, hspelled]
    simp [Spelling.power]
  · simp [Spelling.text, Spelling.fractionText, Spelling.exponentText]

/-- Digits with the point somewhere within them. -/
theorem spells_within {j : Nat} (hj : 0 < j) (hplaces : j < digits.length) :
    Spells negative (digits.take (digits.length - j) ++ '.' :: digits.drop (digits.length - j))
      (Nat.ofDigitChars 10 digits 0 * 10 ^ (-j : Int)) := by
  obtain ⟨hdigits, c, cs, hcs, hc⟩ := h
  obtain ⟨i, hi⟩ := Nat.exists_eq_add_of_lt hplaces
  have hlength : (digits.drop (digits.length - j)).length = j := by
    rw [List.length_drop]
    omega
  have hne : digits.drop (digits.length - j) ≠ [] :=
    List.ne_nil_of_length_pos (hlength.symm ▸ hj)
  have hfirst : digits.take (digits.length - j) = c :: cs.take i := by
    rw [hi, show j + i + 1 - j = i + 1 by omega, hcs, List.take_succ_cons]
  refine ⟨⟨negative, digits.take (digits.length - j), digits.drop (digits.length - j), none⟩,
    ⟨?_, .inr ⟨c, _, hfirst, hc⟩, ?_, by simp⟩, .inl hne, rfl, ?_, ?_⟩
  · exact fun c hc => hdigits c (List.mem_of_mem_take hc)
  · exact fun c hc => hdigits c (List.mem_of_mem_drop hc)
  · simp [Decimal.value, Spelling.decimal, List.take_append_drop, hlength, Spelling.power]
  · simp [Spelling.text, Spelling.fractionText, Spelling.exponentText, hne]

/-- Zeros and digits with the point before them. -/
theorem spells_before {j : Nat} (hplaces : digits.length ≤ j) :
    Spells negative ('0' :: '.' :: List.replicate (j - digits.length) '0' ++ digits)
      (Nat.ofDigitChars 10 digits 0 * 10 ^ (-j : Int)) := by
  obtain ⟨hdigits, c, cs, hcs, -⟩ := h
  have hne : digits ≠ [] := by simp [hcs]
  refine ⟨⟨negative, ['0'], List.replicate (j - digits.length) '0' ++ digits, none⟩,
    ⟨by simp, .inl rfl, ?_, by simp⟩, .inl (by simp [hne]), rfl, ?_, ?_⟩
  · exact List.forall_mem_append.mpr ⟨isDigit_replicate _, hdigits⟩
  · have hspelled : Nat.ofDigitChars 10
        (['0'] ++ (List.replicate (j - digits.length) '0' ++ digits)) 0 =
          Nat.ofDigitChars 10 digits 0 := ofDigitChars_zeros (_ + 1) _
    rw [Decimal.value, Spelling.decimal, hspelled]
    simp [Spelling.power, hplaces]
  · simp [Spelling.text, Spelling.fractionText, Spelling.exponentText, hne]

theorem spells_positional (k : Int) :
    Spells negative (positional digits k) (Nat.ofDigitChars 10 digits 0 * 10 ^ k) := by
  by_cases hk : 0 ≤ k
  · obtain ⟨j, rfl⟩ := Int.eq_ofNat_of_zero_le hk
    rw [positional, if_pos hk]
    exact spells_behind negative h j
  · obtain ⟨j, hj, rfl⟩ : ∃ j : Nat, 0 < j ∧ k = -j := ⟨(-k).toNat, by omega, by omega⟩
    rw [positional, if_neg hk, neg_neg, Int.toNat_natCast]
    simp only
    split
    · rename_i hplaces
      exact spells_within negative h hj hplaces
    · rename_i hplaces
      exact spells_before negative h (not_lt.mp hplaces)

theorem spells_scientific (k : Int) :
    Spells negative (scientific digits k) (Nat.ofDigitChars 10 digits 0 * 10 ^ k) := by
  obtain ⟨hdigits, c, cs, rfl, hc⟩ := h
  refine ⟨⟨negative, [c], cs,
    some (decide (0 ≤ k + cs.length), Nat.toDigits 10 (k + cs.length).natAbs)⟩,
    ⟨?_, .inr ⟨c, [], rfl, hc⟩, ?_, ?_⟩, .inr rfl, rfl, ?_, ?_⟩
  · simpa using hdigits c
  · exact fun c hc => hdigits c (List.mem_cons_of_mem _ hc)
  · rintro p ⟨⟩
    exact ⟨Nat.toDigits_ne_nil, isDigit_toDigits _⟩
  · have hpower : Spelling.power ⟨negative, [c], cs,
        some (decide (0 ≤ k + cs.length), Nat.toDigits 10 (k + cs.length).natAbs)⟩ =
          k + cs.length := by
      unfold Spelling.power
      by_cases hk : 0 ≤ k + cs.length <;>
        simp only [hk, decide_true, decide_false, Nat.ofDigitChars_ten_toDigits] <;> omega
    rw [Decimal.value, Spelling.decimal, hpower, List.singleton_append, Int.add_sub_cancel]
  · by_cases hk : 0 ≤ k + cs.length <;>
      simp [Spelling.text, Spelling.fractionText, Spelling.exponentText, scientific, hk]

end

/-- The text of a double that is not zero spells its shortest decimal. -/
theorem spells_text {x : Double} (hx : x.Valid) (hm : 0 < x.mantissa) :
    ∃ unsigned, x.text = (if x.negative then ['-'] else []) ++ unsigned ∧
      Spells x.negative unsigned (Decimal.shortest x).value := by
  have hleads := leads_toDigits (Decimal.digits_pos_of_near hm (Decimal.near_shortest hx hm))
  have hvalue : (Decimal.shortest x).value = Nat.ofDigitChars 10
      (Nat.toDigits 10 (Decimal.shortest x).digits) 0 * 10 ^ (Decimal.shortest x).exponent := by
    rw [Nat.ofDigitChars_ten_toDigits, Decimal.value]
  have hzero : x.isZero = false := by simpa [isZero] using hm.ne'
  have hsign (cs : List Char) : (if x.negative then '-' :: cs else cs) =
      (if x.negative then ['-'] else []) ++ cs := by
    cases x.negative <;> rfl
  unfold text
  simp only [hzero, Bool.false_eq_true, if_false, hvalue]
  refine ⟨_, hsign _, ?_⟩
  split
  · exact spells_positional x.negative hleads _
  · exact spells_scientific x.negative hleads _

/-- A double is read back from its text, if it is read as the nearest one. -/
theorem readBy_nearest {x : Double} (hx : x.Valid) : (Number.double x).ReadBy Numeral.nearest := by
  rcases Nat.eq_zero_or_pos x.mantissa with hm | hm
  · obtain ⟨negative, m, e⟩ := x
    obtain rfl : m = 0 := hm
    obtain rfl : e = smallestExponent := by
      by_contra hne
      exact absurd (hx.leading hne) (Nat.not_le.mpr (Nat.two_pow_pos 52))
    refine Spelling.readBy_nearest (s := ⟨negative, ['0'], ['0'], none⟩)
      ⟨by simp, .inl rfl, by simp, by simp⟩ (.inl (by simp)) ?_ rfl
    cases negative <;> rfl
  · obtain ⟨unsigned, htext, s, hs, hpoint, hnegative, hvalue, hspelled⟩ := spells_text hx hm
    have hnear : x.Near s.decimal.value := hvalue ▸ Decimal.near_shortest hx hm
    have hread := ofDecimal?_of_near hx (Decimal.digits_pos_of_near hm hnear) hnear s.negative
    refine Spelling.readBy_nearest hs hpoint (htext.trans hspelled.symm) (hread.trans ?_)
    rw [hnegative]

end Double

namespace Number

open Json

/-- The digits of an integer, behind its sign. -/
def spelling (negative : Bool) (k : Nat) : Spelling := ⟨negative, Nat.toDigits 10 k, [], none⟩

theorem proper_spelling (negative : Bool) (k : Nat) : (spelling negative k).Proper := by
  refine ⟨isDigit_toDigits k, ?_, by simp [spelling], by simp [spelling]⟩
  rcases Nat.eq_zero_or_pos k with rfl | hk
  · exact .inl rfl
  · exact .inr (exists_toDigits_eq_cons hk)

theorem text_spelling (negative : Bool) (k : Nat) :
    (spelling negative k).text = (if negative then ['-'] else []) ++ Nat.toDigits 10 k := by
  cases negative <;>
    simp [spelling, Spelling.text, Spelling.fractionText, Spelling.exponentText]

theorem integer?_spelling (negative : Bool) (k : Nat) :
    (spelling negative k).numeral.integer? =
      if ¬ negative then if k ≤ Numeral.largestUnsigned then some (k : Int) else none
      else if 0 < k ∧ k ≤ 0x8000_0000_0000_0000 then some (-k) else none := by
  have hspelled : Numeral.spelled (spelling negative k).numeral.whole = k :=
    (Spelling.spelled_map _).trans Nat.ofDigitChars_ten_toDigits
  have hplain : ¬ ((spelling negative k).numeral.fraction ≠ [] ∨
      (spelling negative k).numeral.exponent.isSome) := by
    simp [spelling, Spelling.numeral]
  rw [Numeral.integer?, if_neg hplain, hspelled]
  rfl

theorem readBy_of_spelling {n : Int} (negative : Bool) (k : Nat)
    (htext : (integer n).text = (spelling negative k).text)
    (hn : (spelling negative k).numeral.integer? = some n) :
    (integer n).ReadBy Numeral.nearest := by
  refine ⟨(spelling negative k).numeral, ?_, ?_⟩
  · rw [htext, Spelling.scanNumeral_text (proper_spelling negative k)]
  · rw [Numeral.nearest, hn]

/-- A number is read back from its text, if it is read as the nearest one. -/
theorem readBy_nearest {n : Number} (h : n.Valid) : n.ReadBy Numeral.nearest := by
  cases n with
  | double x => exact Double.readBy_nearest h
  | integer n =>
    obtain ⟨hlow, hhigh⟩ := h
    cases n with
    | ofNat k =>
      have hk : k ≤ Numeral.largestUnsigned := by
        rw [Int.ofNat_eq_natCast] at hhigh
        unfold Numeral.largestUnsigned
        omega
      refine readBy_of_spelling false k ?_ ?_
      · rw [Int.ofNat_eq_natCast, text_ofNat, text_spelling]
        rfl
      · rw [integer?_spelling, if_pos Bool.false_ne_true, if_pos hk]
        rfl
    | negSucc k =>
      have hk : 0 < k + 1 ∧ k + 1 ≤ 0x8000_0000_0000_0000 := by omega
      refine readBy_of_spelling true (k + 1) ?_ ?_
      · rw [text_negSucc, text_spelling]
        rfl
      · rw [integer?_spelling, if_neg (not_not.mpr rfl), if_pos hk]
        rfl

end Number

end ApiContract
