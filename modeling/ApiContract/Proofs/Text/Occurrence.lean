import ApiContract.Text.Search

namespace ApiContract.Text

/-- A text is empty or begins with a character. -/
def Opens (c : Char) (cs : List Char) : Prop := ∀ d ∈ cs.head?, d = c

variable {c : Char} {pattern cs ds before after : List Char}

/-- An occurrence with more text before it. -/
def behind (cs : List Char) (found : List Char × List Char) : List Char × List Char :=
  (cs ++ found.1, found.2)

/-- An occurrence with more text after it. -/
def followed (cs : List Char) (found : List Char × List Char) : List Char × List Char :=
  (found.1, found.2 ++ cs)

@[simp] theorem behind_nil : behind [] = id := by
  funext found
  simp [behind]

@[simp] theorem behind_comp (cs ds : List Char) : behind cs ∘ behind ds = behind (cs ++ ds) := by
  funext found
  simp [behind]

theorem behind_injective (cs : List Char) : Function.Injective (behind cs) := by
  rintro ⟨before, after⟩ ⟨before', after'⟩ h
  simpa [behind] using h

theorem splitFirst?_cons (pattern : List Char) (c : Char) (cs : List Char) :
    splitFirst? pattern (c :: cs) =
      ((dropStart? pattern (c :: cs)).map ([], ·)).or
        ((splitFirst? pattern cs).map (behind [c])) := by
  rw [splitFirst?]
  cases dropStart? pattern (c :: cs) <;> rfl

/-- What is not found at the start is found behind the first character. -/
theorem splitFirst?_of_dropStart? (h : dropStart? pattern (c :: cs) = none) :
    splitFirst? pattern (c :: cs) = (splitFirst? pattern cs).map (behind [c]) := by
  rw [splitFirst?_cons, h]
  rfl

/-- A pattern that does not have the character ends before the character. -/
theorem dropStart?_append_of_opens (hp : c ∉ pattern) (hd : Opens c ds) (cs : List Char) :
    dropStart? pattern (cs ++ ds) = (dropStart? pattern cs).map (· ++ ds) := by
  fun_induction dropStart? pattern cs with
  | case1 cs => simp [dropStart?]
  | case2 p ps =>
    cases ds with
    | nil => rfl
    | cons d ds =>
      obtain rfl := hd d rfl
      have hne : p ≠ d := fun h => hp (h ▸ List.mem_cons_self)
      rw [List.nil_append, dropStart?, if_neg hne]
      rfl
  | case3 ps p cs ih =>
    rw [List.cons_append, dropStart?, if_pos rfl]
    exact ih (fun h => hp (List.mem_cons_of_mem _ h))
  | case4 p ps d cs hne =>
    rw [List.cons_append, dropStart?, if_neg hne]
    rfl

theorem splitFirst?_append_of_opens (hp : c ∉ pattern) (hd : Opens c ds) (cs : List Char) :
    splitFirst? (c :: pattern) (cs ++ ds) =
      ((splitFirst? (c :: pattern) cs).map (followed ds)).or
        ((splitFirst? (c :: pattern) ds).map (behind cs)) := by
  induction cs with
  | nil => simp [splitFirst?, dropStart?]
  | cons e cs ih =>
    have hstart : dropStart? (c :: pattern) (e :: cs ++ ds) =
        (dropStart? (c :: pattern) (e :: cs)).map (· ++ ds) := by
      rw [List.cons_append, dropStart?, dropStart?]
      split
      · exact dropStart?_append_of_opens hp hd cs
      · rfl
    rw [List.cons_append] at hstart ⊢
    rw [splitFirst?_cons, splitFirst?_cons, hstart, ih]
    cases dropStart? (c :: pattern) (e :: cs) with
    | some rest => simp [followed]
    | none =>
      cases splitFirst? (c :: pattern) cs with
      | some found => simp [behind, followed]
      | none => simp [Option.map_map]

/-- Nothing is found within a text without the character that the pattern begins with. -/
theorem splitFirst?_append_of_not_mem (hc : c ∉ cs) (pattern ds : List Char) :
    splitFirst? (c :: pattern) (cs ++ ds) =
      (splitFirst? (c :: pattern) ds).map (behind cs) := by
  induction cs with
  | nil => simp
  | cons e cs ih =>
    obtain ⟨hne, hrest⟩ := not_or.mp (mt List.mem_cons.mpr hc)
    have hstart : dropStart? (c :: pattern) (e :: (cs ++ ds)) = none := by
      rw [dropStart?, if_neg hne]
    rw [List.cons_append, splitFirst?_of_dropStart? hstart, ih hrest, Option.map_map, behind_comp]
    rfl

/-- Of two texts that end at the same character neither is found at the start of the other. -/
theorem dropStart?_closed {xs ys : List Char} (hx : c ∉ xs) (hy : c ∉ ys) (hne : xs ≠ ys)
    (ds : List Char) : dropStart? (xs ++ [c]) (ys ++ c :: ds) = none := by
  induction xs generalizing ys with
  | nil =>
    cases ys with
    | nil => exact absurd rfl hne
    | cons y ys =>
      have hcy : c ≠ y := fun h => hy (h ▸ List.mem_cons_self)
      rw [List.nil_append, List.cons_append, dropStart?, if_neg hcy]
  | cons x xs ih =>
    obtain ⟨hcx, hx⟩ := not_or.mp (mt List.mem_cons.mpr hx)
    cases ys with
    | nil => rw [List.nil_append, List.cons_append, dropStart?, if_neg (Ne.symm hcx)]
    | cons y ys =>
      have hy : c ∉ ys := fun h => hy (List.mem_cons_of_mem _ h)
      rw [List.cons_append, List.cons_append, dropStart?]
      split
      · rename_i hxy
        exact ih hx hy (fun h => hne (by rw [hxy, h]))
      · rfl

/-- What is found first in a text and what follows it, behind the text, is found first in what
follows. -/
theorem splitFirst?_of_behind {found : Option (List Char × List Char)}
    (h : splitFirst? pattern (cs ++ ds) = found.map (behind cs)) :
    splitFirst? pattern ds = found := by
  induction cs generalizing found with
  | nil => simpa using h
  | cons c cs ih =>
    apply ih
    rw [List.cons_append, splitFirst?_cons] at h
    cases hstart : dropStart? pattern (c :: (cs ++ ds)) with
    | some rest =>
      rw [hstart] at h
      cases found <;> simp [behind] at h
    | none =>
      rw [hstart] at h
      apply Option.map_injective (behind_injective [c])
      simpa using h

end ApiContract.Text
