import ApiContract.Proofs.Text.Spelling

namespace ApiContract.Text

open Naming

/-- A letter or a digit of ASCII, or a character beyond ASCII. -/
def isWordCharacter (c : Char) : Bool := c.isAlphanum || 0x80 ≤ c.toNat

variable {c : Char} {cs : List Char}

theorem isWordCharacter_iff : isWordCharacter c ↔
    0x41 ≤ c.toNat ∧ c.toNat ≤ 0x5a ∨ 0x61 ≤ c.toNat ∧ c.toNat ≤ 0x7a ∨
      0x30 ≤ c.toNat ∧ c.toNat ≤ 0x39 ∨ 0x80 ≤ c.toNat := by
  rw [isWordCharacter, Bool.or_eq_true, decide_eq_true_eq, Char.isAlphanum, Bool.or_eq_true,
    isAlpha_iff, isDigit_iff]
  omega

theorem le_of_isWordCharacter (h : isWordCharacter c) : 0x30 ≤ c.toNat := by
  rw [isWordCharacter_iff] at h
  omega

/-- All that the stretch covers goes to letters of one case of ASCII, or beyond ASCII. -/
def Shift.staysWithin (s : Shift) : Bool :=
  (0x41 ≤ s.stretch.first + s.distance && s.stretch.last + s.distance ≤ 0x5a ||
    0x61 ≤ s.stretch.first + s.distance && s.stretch.last + s.distance ≤ 0x7a ||
    0x80 ≤ s.stretch.first + s.distance) &&
  (s.stretch.last + s.distance < 0xd800 ||
    0xdfff < s.stretch.first + s.distance && s.stretch.last + s.distance < 0x110000)

theorem isWordCharacter_shift {shifts : List Shift} (hs : shifts.all Shift.staysWithin)
    (hc : isWordCharacter c) : isWordCharacter (shift shifts c) := by
  unfold shift
  split
  · rename_i s hfind
    have hcovers := List.find?_some hfind
    have hwithin := List.all_eq_true.mp hs s (List.mem_of_find?_eq_some hfind)
    simp only [Stretch.covers, Bool.and_eq_true, decide_eq_true_eq] at hcovers
    simp only [Shift.staysWithin, Bool.and_eq_true, Bool.or_eq_true, decide_eq_true_eq] at hwithin
    have hvalid : (c.toNat + s.distance).toNat.isValidChar := by
      rcases hwithin.2 with hlow | hhigh
      · exact Or.inl (by omega)
      · exact Or.inr (by omega)
    rw [isWordCharacter_iff, toNat_ofNat hvalid]
    omega
  · exact hc

theorem isWordCharacter_of_mem_expansion {expansions : List (Nat × List Nat)} {ns : List Nat}
    (h : expansions.all fun p => p.2.all fun n => isWordCharacter (Char.ofNat n))
    (hns : expansions.lookup c.toNat = some ns) : ∀ e ∈ ns.map Char.ofNat, isWordCharacter e := by
  intro e he
  obtain ⟨n, hn, rfl⟩ := List.mem_map.mp he
  obtain ⟨front, rest, rfl, -⟩ := List.lookup_eq_some_iff.mp hns
  simp_all

set_option maxRecDepth 8192 in
theorem isWordCharacter_of_mem_toUppercase (hc : isWordCharacter c) :
    ∀ e ∈ toUppercase c, isWordCharacter e := by
  unfold toUppercase
  split
  · rename_i ns hns
    exact isWordCharacter_of_mem_expansion (by decide) hns
  · exact List.forall_mem_singleton.mpr (isWordCharacter_shift (by decide) hc)

set_option maxRecDepth 8192 in
theorem isWordCharacter_of_mem_toLowercase (hc : isWordCharacter c) :
    ∀ e ∈ toLowercase c, isWordCharacter e := by
  unfold toLowercase
  split
  · rename_i ns hns
    exact isWordCharacter_of_mem_expansion (by decide) hns
  · exact List.forall_mem_singleton.mpr (isWordCharacter_shift (by decide) hc)

theorem isWordCharacter_of_isAlphanumeric (h : isAlphanumeric c) : isWordCharacter c := by
  rcases Nat.lt_or_ge c.toNat 0x80 with hascii | hbeyond
  · rw [isAlphanumeric_of_ascii hascii] at h
    simp [isWordCharacter, h]
  · simp [isWordCharacter, hbeyond]

theorem isWordCharacter_of_mem_lowered (h : ∀ c ∈ cs, isWordCharacter c) :
    ∀ e ∈ lowered cs, isWordCharacter e := by
  fun_induction lowered cs with
  | case1 => exact fun _ he => absurd he List.not_mem_nil
  | case2 => exact List.forall_mem_singleton.mpr (by decide)
  | case3 c _ => exact isWordCharacter_of_mem_toLowercase (h c (List.mem_singleton_self c))
  | case4 c d rest ih =>
    obtain ⟨hc, hrest⟩ := List.forall_mem_cons.mp h
    exact List.forall_mem_append.mpr ⟨isWordCharacter_of_mem_toLowercase hc, ih hrest⟩

theorem isWordCharacter_of_mem_capitalized (h : ∀ c ∈ cs, isWordCharacter c) :
    ∀ e ∈ capitalized cs, isWordCharacter e := by
  cases cs with
  | nil => exact fun _ he => absurd he List.not_mem_nil
  | cons c rest =>
    obtain ⟨hc, hrest⟩ := List.forall_mem_cons.mp h
    exact List.forall_mem_append.mpr
      ⟨isWordCharacter_of_mem_toUppercase hc, isWordCharacter_of_mem_lowered hrest⟩

theorem isWordCharacter_of_mem_raiseFirst (h : ∀ c ∈ cs, isWordCharacter c) :
    ∀ e ∈ raiseFirst cs, isWordCharacter e := by
  cases cs with
  | nil => exact fun _ he => absurd he List.not_mem_nil
  | cons c rest =>
    obtain ⟨hc, hrest⟩ := List.forall_mem_cons.mp h
    exact List.forall_mem_append.mpr ⟨isWordCharacter_of_mem_toUppercase hc, hrest⟩

theorem isWordCharacter_of_mem_words (name : String) :
    ∀ word ∈ words name.toList, ∀ c ∈ word, isWordCharacter c := by
  intro word hw c hc
  have hm : c ∈ (words name.toList).flatten := List.mem_flatten.mpr ⟨word, hw, hc⟩
  rw [flatten_words] at hm
  exact isWordCharacter_of_isAlphanumeric (List.mem_filter.mp hm).2

theorem isWordCharacter_of_mem_lowerCamelCase (name : String) :
    ∀ e ∈ (lowerCamelCase name).toList, isWordCharacter e := by
  have hwords := isWordCharacter_of_mem_words name
  unfold lowerCamelCase
  cases hw : words name.toList with
  | nil => exact fun _ he => absurd he List.not_mem_nil
  | cons word rest =>
    rw [hw] at hwords
    obtain ⟨hfirst, hrest⟩ := List.forall_mem_cons.mp hwords
    rw [String.toList_ofList]
    refine List.forall_mem_append.mpr ⟨isWordCharacter_of_mem_lowered hfirst, ?_⟩
    exact List.forall_mem_flatMap.mpr fun other ho =>
      isWordCharacter_of_mem_capitalized (hrest other ho)

theorem isWordCharacter_of_mem_pascalCase (name : String) :
    ∀ e ∈ (pascalCase name).toList, isWordCharacter e := by
  rw [pascalCase, String.toList_ofList]
  exact List.forall_mem_flatMap.mpr fun word hw =>
    isWordCharacter_of_mem_capitalized (isWordCharacter_of_mem_words name word hw)

theorem isWordCharacter_of_mem_camelCase (name : String) :
    ∀ e ∈ (camelCase name).toList, isWordCharacter e := by
  rw [camelCase, String.toList_ofList]
  refine List.forall_mem_flatMap.mpr fun piece hp => isWordCharacter_of_mem_raiseFirst ?_
  intro c hc
  have hseparates := not_separates_of_mem_pieces hp c hc
  apply isWordCharacter_of_isAlphanumeric
  simp only [separates, Bool.or_eq_false_iff] at hseparates
  simpa using hseparates.2

end ApiContract.Text
