import ApiContract.GoClient.Lexical
import ApiContract.Proofs.Text.Occurrence

namespace ApiContract.GoClient

open Text

/-- The character that one letter after a backslash stands for. -/
def letterEscape? : Char → Option Char
  | 'a' => some '\x07'
  | 'b' => some '\x08'
  | 'f' => some '\x0c'
  | 'n' => some '\n'
  | 'r' => some '\r'
  | 't' => some '\t'
  | 'v' => some '\x0b'
  | '\\' => some '\\'
  | '"' => some '"'
  | _ => none

/-- The number that digits of a base spell, if each of them is one. -/
def spelled? (base : Nat) (ds : List Char) : Option Nat :=
  ds.foldlM (fun n c => ((hexValue? c).filter (· < base)).map (base * n + ·)) 0

/-- The character with the number that some digits spell, if it is below a bound. -/
def numberEscape? (base digits bound : Nat) (cs : List Char) : Option (Char × List Char) :=
  if digits ≤ cs.length then
    ((spelled? base (cs.take digits)).filter fun n => n < bound ∧ n.isValidChar).map
      fun n => (Char.ofNat n, cs.drop digits)
  else none

/-- The character that is escaped after a backslash, and what follows. An escape of two hexadecimal
or three octal digits is a byte, which is a character of its own in ASCII only. -/
def escape? : List Char → Option (Char × List Char)
  | [] => none
  | c :: cs =>
    if c = 'x' then numberEscape? 16 2 0x80 cs
    else if c = 'u' then numberEscape? 16 4 0x110000 cs
    else if c = 'U' then numberEscape? 16 8 0x110000 cs
    else if '0' ≤ c ∧ c ≤ '7' then numberEscape? 8 3 0x80 (c :: cs)
    else (letterEscape? c).map (·, cs)

theorem length_le_of_numberEscape? {base digits bound : Nat} {cs rest : List Char} {c : Char}
    (h : numberEscape? base digits bound cs = some (c, rest)) : rest.length ≤ cs.length := by
  unfold numberEscape? at h
  split at h
  · obtain ⟨n, -, he⟩ := Option.map_eq_some_iff.mp h
    cases he
    simp
  · cases h

theorem length_le_of_escape? {cs rest : List Char} {c : Char} (h : escape? cs = some (c, rest)) :
    rest.length ≤ cs.length := by
  cases cs with
  | nil => cases h
  | cons d cs =>
    have hdigits : ∀ {base digits bound},
        numberEscape? base digits bound cs = some (c, rest) → rest.length ≤ (d :: cs).length :=
      fun hn => Nat.le_succ_of_le (length_le_of_numberEscape? hn)
    rw [escape?] at h
    split at h
    · exact hdigits h
    split at h
    · exact hdigits h
    split at h
    · exact hdigits h
    split at h
    · exact length_le_of_numberEscape? h
    · obtain ⟨e, -, he⟩ := Option.map_eq_some_iff.mp h
      cases he
      exact Nat.le_succ _

/-- What stands before the quote that ends a literal, and what follows the quote. -/
def readContent? : List Char → Option (List Char × List Char)
  | [] => none
  | c :: cs =>
    if c = '"' then some ([], cs)
    else if c = '\n' then none
    else if c = '\\' then
      match h : escape? cs with
      | none => none
      | some (d, rest) =>
        have : rest.length ≤ cs.length := length_le_of_escape? h
        (readContent? rest).map (behind [d])
    else (readContent? cs).map (behind [c])
termination_by cs => cs.length

/-- The text that an interpreted string literal denotes, and what follows the literal. -/
def readLiteral? : List Char → Option (List Char × List Char)
  | '"' :: cs => readContent? cs
  | _ => none

theorem readContent?_escape {c : Char} {cs rest : List Char} (h : escape? cs = some (c, rest)) :
    readContent? ('\\' :: cs) = (readContent? rest).map (behind [c]) := by
  have hquote : '\\' ≠ '"' := by decide
  have hline : '\\' ≠ '\n' := by decide
  rw [readContent?, if_neg hquote, if_neg hline, if_pos rfl]
  split
  · rename_i hnone
    rw [hnone] at h
    cases h
  · rename_i d other hsome
    rw [hsome] at h
    cases h
    rfl

theorem hexValue?_hexDigit_filter {n : Nat} (h : n < 16) :
    (hexValue? (hexDigit n)).filter (· < 16) = some n := by
  simp [hexValue?_hexDigit h, h]

theorem spelled?_hexDigit {n : Nat} (hn : n < 256) :
    spelled? 16 [hexDigit (n / 16), hexDigit (n % 16)] = some n := by
  have hhigh := hexValue?_hexDigit_filter (n := n / 16) (by omega)
  have hlow := hexValue?_hexDigit_filter (n := n % 16) (by omega)
  have hparts : 16 * (n / 16) + n % 16 = n := Nat.div_add_mod n 16
  simp [spelled?, hhigh, hlow, hparts]

theorem escape?_hexDigit {n : Nat} (hn : n < 0x80) (rest : List Char) :
    escape? ('x' :: hexDigit (n / 16) :: hexDigit (n % 16) :: rest) =
      some (Char.ofNat n, rest) := by
  have hdigits := spelled?_hexDigit (n := n) (by omega)
  have hvalid : n < 55296 := by omega
  rw [escape?, if_pos rfl, numberEscape?, if_pos (by simp)]
  simp [hdigits, Option.filter_some, Nat.isValidChar, hn, hvalid]

/-- Each character is read back from the way it is written. -/
theorem readContent?_escaped (c : Char) (rest : List Char) :
    readContent? (escaped c ++ rest) = (readContent? rest).map (behind [c]) := by
  unfold escaped
  split
  case h_6 hquote hbackslash hline _ _ =>
    split
    · have hn : c.toNat < 0x80 := by omega
      have hescape := escape?_hexDigit hn rest
      rw [Char.ofNat_toNat] at hescape
      exact readContent?_escape hescape
    · rw [List.cons_append, List.nil_append, readContent?, if_neg hquote, if_neg hline,
        if_neg hbackslash]
  all_goals exact readContent?_escape rfl

theorem readContent?_flatMap (cs rest : List Char) :
    readContent? (cs.flatMap escaped ++ '"' :: rest) = some (cs, rest) := by
  induction cs with
  | nil =>
    rw [List.flatMap_nil, List.nil_append, readContent?, if_pos rfl]
  | cons c cs ih =>
    rw [List.flatMap_cons, List.append_assoc, readContent?_escaped, ih]
    rfl

theorem readLiteral?_stringLiteral (s : String) (rest : List Char) :
    readLiteral? ((stringLiteral s).toList ++ rest) = some (s.toList, rest) := by
  have hliteral : (stringLiteral s).toList ++ rest =
      '"' :: (s.toList.flatMap escaped ++ '"' :: rest) := by
    simp [stringLiteral]
  rw [hliteral]
  exact readContent?_flatMap s.toList rest

theorem newline_not_mem_stringLiteral (s : String) : '\n' ∉ (stringLiteral s).toList := by
  have hdigit : ∀ n < 16, '\n' ≠ hexDigit n := by decide
  have hescaped : ∀ c, '\n' ∉ escaped c := by
    intro c
    unfold escaped
    split
    case h_6 hline _ _ =>
      split
      · have hhigh := hdigit (c.toNat / 16) (by omega)
        have hlow := hdigit (c.toNat % 16) (by omega)
        simp [hhigh, hlow]
      · simpa using Ne.symm hline
    all_goals decide
  rw [stringLiteral, String.toList_ofList]
  simp [hescaped]

end ApiContract.GoClient
