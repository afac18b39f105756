import ApiContract.Json.Text
import ApiContract.Json.Token

namespace ApiContract

namespace Number

theorem text_ofNat (k : Nat) : (integer k).text = Nat.toDigits 10 k := by
  simp [text, toString, Int.repr, Nat.repr]

theorem text_negSucc (k : Nat) : (integer (.negSucc k)).text = '-' :: Nat.toDigits 10 (k + 1) := by
  simp [text, toString, Int.repr, Nat.repr]

end Number

namespace Json

theorem hexNumber?_small {n : Nat} (h : n < 0x20) :
    Text.hexNumber? ['0', '0', Text.hexDigit (n / 16), Text.hexDigit (n % 16)] = some n := by
  have key : ∀ n : Fin 0x20, Text.hexNumber?
      ['0', '0', Text.hexDigit (n.val / 16), Text.hexDigit (n.val % 16)] = some n.val := by decide
  exact key ⟨n, h⟩

/-- The forms in which a character is written. -/
theorem escaped_cases (c : Char) :
    (∃ e, escaped c = ['\\', e] ∧ e ≠ 'u' ∧ simpleEscape? e = some c) ∨
    (c.toNat < 0x20 ∧ escaped c =
      ['\\', 'u', '0', '0', Text.hexDigit (c.toNat / 16), Text.hexDigit (c.toNat % 16)]) ∨
    (0x20 ≤ c.toNat ∧ c ≠ '"' ∧ c ≠ '\\' ∧ escaped c = [c]) := by
  unfold escaped
  split
  case h_8 hq hb _ _ _ _ _ =>
    split
    · rename_i h
      exact Or.inr (Or.inl ⟨h, rfl⟩)
    · rename_i h
      exact Or.inr (Or.inr ⟨by omega, hq, hb, rfl⟩)
  all_goals exact Or.inl ⟨_, rfl, by decide, rfl⟩

theorem scanString_escaped (c : Char) (rest : List Char) :
    scanString (escaped c ++ rest) = (scanString rest).map (c :: ·) := by
  rcases escaped_cases c with ⟨e, he, hu, hs⟩ | ⟨hc, he⟩ | ⟨hc, hq, hb, he⟩
  · rw [he, List.cons_append, List.cons_append, List.nil_append, scanString.eq_def]
    simp [hs]
  · have hn : scanUnit ('0' :: '0' :: Text.hexDigit (c.toNat / 16) ::
        Text.hexDigit (c.toNat % 16) :: rest) = .ok c.toNat := by
      simp [scanUnit, hexNumber?_small hc]
    have hl : isLowSurrogate c.toNat = false := by simp [isLowSurrogate]; omega
    have hh : isHighSurrogate c.toNat = false := by simp [isHighSurrogate]; omega
    rw [he]
    simp only [List.cons_append, List.nil_append]
    rw [scanString.eq_def]
    simp [hn, hl, hh, Char.ofNat_toNat]
  · have hlt : ¬ c.toNat < 0x20 := by omega
    rw [he, List.cons_append, List.nil_append, scanString.eq_def]
    split <;> rename_i heq <;> cases heq
    all_goals first
      | exact absurd rfl hq
      | exact absurd rfl hb
      | exact if_neg hlt

theorem passString_escaped (c : Char) (rest : List Char) :
    passString (escaped c ++ rest) = passString rest := by
  rcases escaped_cases c with ⟨e, he, hu, hs⟩ | ⟨hc, he⟩ | ⟨hc, hq, hb, he⟩
  · rw [he]
    simp [passString, hu, hs]
  · rw [he]
    simp only [List.cons_append, List.nil_append]
    rw [passString]
    simp [hexNumber?_small hc]
  · have hlt : ¬ c.toNat < 0x20 := by omega
    rw [he, List.cons_append, List.nil_append, passString.eq_def]
    split <;> rename_i heq <;> cases heq
    all_goals first
      | exact absurd rfl hq
      | exact absurd rfl hb
      | exact if_neg hlt

theorem scanString_quoted (cs rest : List Char) :
    scanString (cs.flatMap escaped ++ '"' :: rest) = .ok cs := by
  induction cs with
  | nil => simp [scanString]
  | cons c cs ih =>
    rw [List.flatMap_cons, List.append_assoc, scanString_escaped, ih]
    rfl

theorem passString_quoted (cs rest : List Char) :
    passString (cs.flatMap escaped ++ '"' :: rest) = .ok rest := by
  induction cs with
  | nil => simp [passString]
  | cons c cs ih => rw [List.flatMap_cons, List.append_assoc, passString_escaped, ih]

/-- A string and what follows it are told from the text of both. -/
theorem quoted_append_inj {s t : String} {r r' : List Char}
    (h : quoted s ++ r = quoted t ++ r') : s = t ∧ r = r' := by
  have hbody : s.toList.flatMap escaped ++ '"' :: r = t.toList.flatMap escaped ++ '"' :: r' := by
    simpa [quoted] using h
  have hs := congrArg scanString hbody
  have hr := congrArg passString hbody
  rw [scanString_quoted, scanString_quoted] at hs
  rw [passString_quoted, passString_quoted] at hr
  exact ⟨String.toList_inj.mp (Except.ok.inj hs), Except.ok.inj hr⟩

/-- The characters that numbers are written with. -/
def isNumeric (c : Char) : Bool := c.isDigit || c = '-' || c = '+' || c = '.' || c = 'e'

theorem isNumeric_of_mem_toDigits {n : Nat} {c : Char} (h : c ∈ Nat.toDigits 10 n) :
    isNumeric c := by
  simp [isNumeric, Nat.isDigit_of_mem_toDigits (by decide) (by decide) h]

theorem isNumeric_of_mem_positional {digits : List Char} {exponent : Int} {c : Char}
    (hd : ∀ c ∈ digits, isNumeric c) (h : c ∈ Double.positional digits exponent) :
    isNumeric c := by
  have zero : isNumeric '0' := by decide
  have point : isNumeric '.' := by decide
  unfold Double.positional at h
  split at h
  · simp only [List.mem_append, List.mem_replicate, List.mem_cons, List.not_mem_nil] at h
    grind
  · dsimp only at h
    split at h
    · simp only [List.mem_append, List.mem_cons] at h
      grind [List.mem_of_mem_take, List.mem_of_mem_drop]
    · simp only [List.cons_append, List.mem_append, List.mem_replicate, List.mem_cons] at h
      grind

theorem isNumeric_of_mem_scientific {digits : List Char} {exponent : Int} {c : Char}
    (hd : ∀ c ∈ digits, isNumeric c) (h : c ∈ Double.scientific digits exponent) :
    isNumeric c := by
  have signs : isNumeric 'e' ∧ isNumeric '-' ∧ isNumeric '+' ∧ isNumeric '.' := by decide
  unfold Double.scientific at h
  simp only [List.mem_append, List.mem_cons] at h
  grind [List.mem_of_mem_take, List.mem_of_mem_drop, isNumeric_of_mem_toDigits]

theorem isNumeric_of_mem_text {n : Number} {c : Char} (h : c ∈ n.text) : isNumeric c := by
  have digits : ∀ n, ∀ c ∈ Nat.toDigits 10 n, isNumeric c :=
    fun _ _ => isNumeric_of_mem_toDigits
  cases n with
  | integer n =>
    cases n with
    | ofNat n => exact digits n c (Number.text_ofNat n ▸ h)
    | negSucc n =>
      rcases List.mem_cons.mp (Number.text_negSucc n ▸ h) with rfl | hc
      · decide
      · exact digits (n + 1) c hc
  | double x =>
    have zero : isNumeric '0' := by decide
    have point : isNumeric '.' := by decide
    have zeros : ∀ c ∈ ['0', '.', '0'], isNumeric c := by simp [zero, point]
    have minus : isNumeric '-' := by decide
    simp only [Number.text, Double.text] at h
    grind [isNumeric_of_mem_positional, isNumeric_of_mem_scientific]

end Json

end ApiContract
