import ApiContract.Proofs.GoClient.Literal

namespace ApiContract.GoClient

open Text

/-- How a byte is escaped: what follows the backslash, the base of the digits and how many there
are. -/
def byteEscapes : List (List Char × Nat × Nat) := [(['x'], 16, 2), ([], 8, 3)]

/-- How a code point is escaped: what follows the backslash and how many digits there are. -/
def pointEscapes : List (Char × Nat) := [('u', 4), ('U', 8)]

/-- One element between the quotes and the bytes that it stands for: a character, which is no quote,
backslash or line break, or an escape. -/
inductive Element : List Char → List UInt8 → Prop
  | plain {c : Char} : c ≠ '"' → c ≠ '\\' → c ≠ '\n' → Element [c] (String.utf8EncodeChar c)
  | letter {c d : Char} : letterEscape? c = some d → Element ['\\', c] (String.utf8EncodeChar d)
  | byte {mark ds : List Char} {base n : Nat} : (mark, base, ds.length) ∈ byteEscapes →
      spelled? base ds = some n → n < 256 → Element ('\\' :: (mark ++ ds)) [UInt8.ofNat n]
  | point {mark : Char} {ds : List Char} {n : Nat} : (mark, ds.length) ∈ pointEscapes →
      spelled? 16 ds = some n → n.isValidChar →
      Element ('\\' :: mark :: ds) (String.utf8EncodeChar (Char.ofNat n))

/-- Elements one after the other. -/
inductive Content : List Char → List UInt8 → Prop
  | nil : Content [] []
  | cons {element cs : List Char} {bytes more : List UInt8} :
      Element element bytes → Content cs more → Content (element ++ cs) (bytes ++ more)

/-- A text is one string literal, and stands for some bytes. -/
def Interprets (text : List Char) (bytes : List UInt8) : Prop :=
  ∃ content, text = '"' :: (content ++ ['"']) ∧ Content content bytes

/-- The bytes of the element that a text begins with, and what follows the element. -/
def element? : List Char → Option (List UInt8 × List Char)
  | [] => none
  | c :: cs =>
    if c ≠ '\\' then some (String.utf8EncodeChar c, cs)
    else match cs with
      | [] => none
      | d :: ds =>
        match letterEscape? d with
        | some e => some (String.utf8EncodeChar e, ds)
        | none =>
          if d = 'x' then
            (spelled? 16 (ds.take 2)).map fun n => ([UInt8.ofNat n], ds.drop 2)
          else if d = 'u' then
            (spelled? 16 (ds.take 4)).map fun n => (String.utf8EncodeChar (Char.ofNat n), ds.drop 4)
          else if d = 'U' then
            (spelled? 16 (ds.take 8)).map fun n => (String.utf8EncodeChar (Char.ofNat n), ds.drop 8)
          else (spelled? 8 (cs.take 3)).map fun n => ([UInt8.ofNat n], cs.drop 3)

variable {c d : Char} {cs ds element rest rest' text text' : List Char} {base n : Nat}
  {bytes bytes' : List UInt8}

theorem letterEscape?_mem (h : letterEscape? c = some d) :
    c ∈ ['a', 'b', 'f', 'n', 'r', 't', 'v', '\\', '"'] := by
  unfold letterEscape? at h
  split at h
  case h_10 => cases h
  all_goals decide

/-- No octal digit begins another escape. -/
theorem octal_apart (h : spelled? 8 (c :: ds) = some n) :
    c ∉ ['a', 'b', 'f', 'n', 'r', 't', 'v', '\\', '"', 'x', 'u', 'U'] := by
  have hall : ['a', 'b', 'f', 'n', 'r', 't', 'v', '\\', '"', 'x', 'u', 'U'].all
      (fun e => (hexValue? e).filter (· < 8) = none) := by decide
  intro hc
  have hnone := of_decide_eq_true (List.all_eq_true.mp hall c hc)
  simp [spelled?, hnone] at h

theorem Element.element?_append (h : Element element bytes) (rest : List Char) :
    element? (element ++ rest) = some (bytes, rest) := by
  cases h with
  | plain hquote hbackslash hline => simp [element?, hbackslash]
  | letter hc => simp [element?, hc]
  | @byte mark ds base n hmark hn hlt =>
    simp only [byteEscapes, List.mem_cons, Prod.mk.injEq, List.not_mem_nil, or_false] at hmark
    rcases hmark with ⟨rfl, rfl, hlength⟩ | ⟨rfl, rfl, hlength⟩
    · have hx : letterEscape? 'x' = none := rfl
      simp [element?, hx, ← hlength, hn]
    · obtain ⟨c, ds, rfl⟩ := List.exists_cons_of_length_pos (by omega : 0 < ds.length)
      have hapart := octal_apart hn
      have hletter : letterEscape? c = none := by
        cases he : letterEscape? c with
        | none => rfl
        | some e =>
          exact absurd (List.mem_append_left ['x', 'u', 'U'] (letterEscape?_mem he)) hapart
      simp only [List.mem_cons, not_or] at hapart
      have htake : (c :: (ds ++ rest)).take 3 = c :: ds := by
        rw [← List.cons_append, ← hlength, List.take_left]
      have hdrop : (c :: (ds ++ rest)).drop 3 = rest := by
        rw [← List.cons_append, ← hlength, List.drop_left]
      simp [element?, hletter, hapart, htake, hdrop, hn]
  | @point mark ds n hmark hn hvalid =>
    simp only [pointEscapes, List.mem_cons, Prod.mk.injEq, List.not_mem_nil, or_false] at hmark
    rcases hmark with ⟨rfl, hlength⟩ | ⟨rfl, hlength⟩
    · have hu : letterEscape? 'u' = none := rfl
      simp [element?, hu, ← hlength, hn]
    · have hu : letterEscape? 'U' = none := rfl
      simp [element?, hu, ← hlength, hn]

/-- A text begins with one element at most. -/
theorem Element.unique (h : Element element bytes) (h' : Element text bytes')
    (heq : element ++ rest = text ++ rest') : element = text ∧ bytes = bytes' := by
  have hread := h.element?_append rest
  rw [heq, h'.element?_append rest'] at hread
  obtain ⟨hbytes, hrest⟩ := Prod.mk.inj (Option.some.inj hread)
  subst hrest
  exact ⟨List.append_cancel_right heq, hbytes.symm⟩

theorem Element.exists_cons (h : Element element bytes) : ∃ c cs, element = c :: cs ∧ c ≠ '"' := by
  have hbackslash : '\\' ≠ '"' := by decide
  cases h with
  | plain hquote => exact ⟨_, _, rfl, hquote⟩
  | letter | byte | point => exact ⟨_, _, rfl, hbackslash⟩

/-- No element begins with the quote that ends a literal. -/
theorem Element.ne_quote (h : Element element bytes) :
    element ++ rest ≠ '"' :: rest' := by
  obtain ⟨c, cs, rfl, hquote⟩ := h.exists_cons
  intro heq
  exact hquote (List.cons.inj heq).1

/-- What stands before the quote that ends a literal is told apart from what follows. -/
theorem Content.unique (h : Content cs bytes) (h' : Content ds bytes')
    (heq : cs ++ '"' :: rest = ds ++ '"' :: rest') : cs = ds ∧ bytes = bytes' := by
  induction h generalizing ds bytes' with
  | nil =>
    cases h' with
    | nil => exact ⟨rfl, rfl⟩
    | cons hother =>
      rw [List.nil_append, List.append_assoc] at heq
      exact absurd heq.symm hother.ne_quote
  | cons helement _ ih =>
    cases h' with
    | nil =>
      rw [List.nil_append, List.append_assoc] at heq
      exact absurd heq helement.ne_quote
    | cons hother hmore =>
      rw [List.append_assoc, List.append_assoc] at heq
      obtain ⟨rfl, rfl⟩ := helement.unique hother heq
      obtain ⟨rfl, rfl⟩ := ih hmore (List.append_cancel_left heq)
      exact ⟨rfl, rfl⟩

/-- No literal begins another one, and none stands for two values. -/
theorem Interprets.unique (h : Interprets text bytes) (h' : Interprets text' bytes')
    (heq : text ++ rest = text' ++ rest') : text = text' ∧ bytes = bytes' := by
  obtain ⟨content, rfl, hc⟩ := h
  obtain ⟨content', rfl, hc'⟩ := h'
  simp only [List.cons_append, List.append_assoc, List.nil_append, List.cons.injEq,
    true_and] at heq
  obtain ⟨rfl, rfl⟩ := hc.unique hc' heq
  exact ⟨rfl, rfl⟩

/-- In ASCII a character is one byte. -/
theorem utf8EncodeChar_of_lt (hc : c.toNat < 0x80) :
    String.utf8EncodeChar c = [UInt8.ofNat c.toNat] := by
  have hsize : c.utf8Size = 1 := Char.utf8Size_eq_one_iff.mpr (by
    rw [UInt32.le_iff_toNat_le]
    exact Nat.le_of_lt_succ hc)
  rw [String.utf8EncodeChar_eq_singleton hsize]
  rfl

theorem element_escaped (c : Char) : Element (escaped c) (String.utf8EncodeChar c) := by
  unfold escaped
  split
  case h_6 hquote hbackslash hline _ _ =>
    split
    · have hascii : c.toNat < 0x80 := by omega
      rw [utf8EncodeChar_of_lt hascii]
      have hmark : (['x'], 16, 2) ∈ byteEscapes := List.mem_cons_self
      have hdigits := spelled?_hexDigit (n := c.toNat) (by omega)
      exact .byte hmark hdigits (by omega)
    · exact .plain hquote hbackslash hline
  all_goals exact .letter rfl

theorem content_flatMap (cs : List Char) :
    Content (cs.flatMap escaped) (cs.flatMap String.utf8EncodeChar) := by
  induction cs with
  | nil => exact .nil
  | cons c cs ih => exact .cons (element_escaped c) ih

theorem bytes_eq (s : String) : s.toUTF8.data.toList = s.toList.flatMap String.utf8EncodeChar := by
  rw [String.toUTF8, ← String.utf8Encode_toList, List.utf8Encode, List.toList_data_toByteArray]

theorem interprets_stringLiteral (s : String) :
    Interprets (stringLiteral s).toList s.toUTF8.data.toList := by
  refine ⟨s.toList.flatMap escaped, ?_, ?_⟩
  · rw [stringLiteral, String.toList_ofList, List.cons_append]
  · rw [bytes_eq]
    exact content_flatMap s.toList

theorem stringLiteral_injective : Function.Injective stringLiteral := by
  intro s t h
  have hs := readLiteral?_stringLiteral s []
  rw [h, readLiteral?_stringLiteral t []] at hs
  exact (String.toList_inj.mp (Prod.mk.inj (Option.some.inj hs)).1).symm

/-- What is written for a text is one string literal on one line and stands for the text, whatever
follows: no other literal begins there, and reading gives the text back and leaves what follows.
Different texts have different literals. -/
theorem stringLiteral_interpreted (s : String) :
    Interprets (stringLiteral s).toList s.toUTF8.data.toList ∧
    '\n' ∉ (stringLiteral s).toList ∧
    (∀ rest text bytes, Interprets text bytes → text <+: (stringLiteral s).toList ++ rest →
      text = (stringLiteral s).toList ∧ bytes = s.toUTF8.data.toList) ∧
    (∀ rest, readLiteral? ((stringLiteral s).toList ++ rest) = some (s.toList, rest)) ∧
    ∀ t, stringLiteral t = stringLiteral s → t = s := by
  refine ⟨interprets_stringLiteral s, newline_not_mem_stringLiteral s, ?_,
    readLiteral?_stringLiteral s, fun t h => stringLiteral_injective h⟩
  rintro rest text bytes h ⟨rest', heq⟩
  exact h.unique (interprets_stringLiteral s) heq

/-- The digits of an escape end before a character that could be one more. -/
theorem escape_before_digit : ∀ text bytes, Interprets text bytes →
    text <+: (stringLiteral "\x01f\"").toList ++ "+f".toList →
      String.ofList text = "\"\\x01f\\\"\"" ∧ bytes = [1, 102, 34] := by
  intro text bytes h hbegins
  obtain ⟨-, -, hunique, -⟩ := stringLiteral_interpreted "\x01f\""
  obtain ⟨rfl, rfl⟩ := hunique _ text bytes h hbegins
  exact ⟨by decide, by decide⟩

end ApiContract.GoClient
