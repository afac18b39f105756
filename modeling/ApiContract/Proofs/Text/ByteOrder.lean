import ApiContract.Proofs.Members

namespace ApiContract

namespace Text

/-- The bytes of a text in UTF-8. -/
def bytes (s : String) : List UInt8 := s.toUTF8.data.toList

theorem bytes_eq (s : String) : bytes s = s.toList.flatMap String.utf8EncodeChar := by
  have hutf8 : s.toUTF8 = s.toList.utf8Encode := String.utf8Encode_toList.symm
  rw [bytes, hutf8]
  simp [List.utf8Encode]

/-- How many bytes of a character follow the first one. -/
def following (n : Nat) : Nat :=
  if n ≤ 127 then 0 else if n ≤ 2047 then 1 else if n ≤ 65535 then 2 else 3

/-- The high bits of the first byte, which tell how many follow. -/
def leadMark : Nat → Nat
  | 0 => 0
  | 1 => 192
  | 2 => 224
  | _ => 240

/-- What is left of a number without its last digits to the base 64: the bits of the first byte. -/
def leading (n : Nat) : Nat → Nat
  | 0 => n
  | k + 1 => leading (n / 64) k

/-- A number as a first byte, which carries a mark, and a byte for each of its last digits to the
base 64. -/
def marked (mark n : Nat) : Nat → List UInt8
  | 0 => [UInt8.ofNat (n + mark)]
  | k + 1 => marked mark (n / 64) k ++ [UInt8.ofNat (n % 64 + 128)]

theorem lt_of_valid (c : Char) : c.val.toNat < 1114112 := by
  have hvalid := c.valid
  simp only [UInt32.isValidChar, Nat.isValidChar] at hvalid
  omega

theorem utf8EncodeChar_eq (c : Char) :
    String.utf8EncodeChar c =
      marked (leadMark (following c.val.toNat)) c.val.toNat (following c.val.toNat) := by
  have hc := lt_of_valid c
  unfold String.utf8EncodeChar following
  dsimp only
  generalize c.val.toNat = n at hc
  split
  · simp [leadMark, marked]
  split
  · have hlead : n / 64 % 32 = n / 64 := Nat.mod_eq_of_lt (by omega)
    simp [leadMark, marked, hlead]
  split
  · have hlead : n / 4096 % 16 = n / 4096 := Nat.mod_eq_of_lt (by omega)
    simp [leadMark, marked, Nat.div_div_eq_div_mul, hlead]
  · have hlead : n / 262144 % 8 = n / 262144 := Nat.mod_eq_of_lt (by omega)
    simp [leadMark, marked, Nat.div_div_eq_div_mul, hlead]

theorem ofNat_cons_lt {a b : Nat} {x y : List UInt8} (hb : b < 256)
    (h : a < b ∨ a = b ∧ x < y) : UInt8.ofNat a :: x < UInt8.ofNat b :: y := by
  apply List.cons_lt_cons_iff.mpr
  rcases h with h | ⟨rfl, h⟩
  · left
    rw [UInt8.lt_iff_toNat_lt, UInt8.toNat_ofNat', UInt8.toNat_ofNat']
    omega
  · exact Or.inr ⟨rfl, h⟩

theorem marked_eq_cons (mark n k : Nat) :
    ∃ bs, marked mark n k = UInt8.ofNat (leading n k + mark) :: bs := by
  induction k generalizing n with
  | zero => exact ⟨[], rfl⟩
  | succ k ih =>
    obtain ⟨bs, h⟩ := ih (n / 64)
    exact ⟨bs ++ [UInt8.ofNat (n % 64 + 128)], by rw [marked, h, leading, List.cons_append]⟩

/-- As many bytes hold the digits of a number from the highest on. -/
theorem marked_lt {mark m n k : Nat} (hmn : m < n) (hn : leading n k + mark < 256)
    (x y : List UInt8) : marked mark m k ++ x < marked mark n k ++ y := by
  induction k generalizing m n x y with
  | zero =>
    apply ofNat_cons_lt hn
    left
    rw [leading]
    omega
  | succ k ih =>
    rw [marked, marked, List.append_assoc, List.append_assoc]
    rcases Nat.lt_or_eq_of_le (Nat.div_le_div_right (Nat.le_of_lt hmn)) with hq | hq
    · exact ih hq hn _ _
    · rw [hq]
      apply List.append_left_lt
      apply ofNat_cons_lt (by omega)
      left
      omega

/-- A smaller character has smaller bytes, whatever follows: more bytes begin with a larger one. -/
theorem utf8EncodeChar_lt {c d : Char} (h : c < d) (x y : List UInt8) :
    String.utf8EncodeChar c ++ x < String.utf8EncodeChar d ++ y := by
  have hlt : c.val.toNat < d.val.toNat := h
  have hd := lt_of_valid d
  rw [utf8EncodeChar_eq, utf8EncodeChar_eq]
  generalize c.val.toNat = m at hlt
  generalize d.val.toNat = n at hlt hd
  have hbyte : leading n (following n) + leadMark (following n) < 256 := by
    unfold following leadMark
    grind [leading]
  by_cases hk : following m = following n
  · rw [hk]
    exact marked_lt hlt hbyte x y
  · obtain ⟨bs, hm⟩ := marked_eq_cons (leadMark (following m)) m (following m)
    obtain ⟨bs', hn⟩ := marked_eq_cons (leadMark (following n)) n (following n)
    rw [hm, hn]
    apply ofNat_cons_lt hbyte
    left
    unfold following leadMark at *
    grind [leading]

theorem flatMap_utf8EncodeChar_lt {a b : List Char} (h : a < b) :
    a.flatMap String.utf8EncodeChar < b.flatMap String.utf8EncodeChar := by
  induction a generalizing b with
  | nil =>
    cases b with
    | nil => exact absurd h (List.lt_irrefl _)
    | cons d b =>
      obtain ⟨bs, hd⟩ :=
        marked_eq_cons (leadMark (following d.val.toNat)) d.val.toNat (following d.val.toNat)
      rw [List.flatMap_cons, utf8EncodeChar_eq, hd]
      exact List.nil_lt_cons _ _
  | cons c a ih =>
    cases b with
    | nil => exact absurd h (List.not_lt_nil _)
    | cons d b =>
      rw [List.flatMap_cons, List.flatMap_cons]
      rcases List.cons_lt_cons_iff.mp h with hlt | ⟨rfl, hlt⟩
      · exact utf8EncodeChar_lt hlt _ _
      · exact List.append_left_lt (ih hlt)

theorem bytes_lt {s t : String} (h : s < t) : bytes s < bytes t := by
  rw [bytes_eq, bytes_eq]
  exact flatMap_utf8EncodeChar_lt (String.lt_iff.mp h)

theorem bytes_le {s t : String} (h : s ≤ t) : bytes s ≤ bytes t := by
  by_cases he : s = t
  · rw [he]
    exact List.le_refl _
  · have hlt : s < t := by
      apply String.not_le.mp
      intro hts
      exact he (String.le_antisymm h hts)
    exact List.le_of_lt (bytes_lt hlt)

end Text

/-- A sorted map goes through its members by the bytes of their names. -/
theorem Members.pairwise_bytes_sorted {α : Type} (m : Members α) :
    m.sorted.Pairwise fun p q => Text.bytes p.1 ≤ Text.bytes q.1 :=
  (pairwise_sorted m).imp Text.bytes_le

end ApiContract
