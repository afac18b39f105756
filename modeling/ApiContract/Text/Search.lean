namespace ApiContract.Text

/-- The text after `start`, if it begins with `start`. -/
def dropStart? : List Char → List Char → Option (List Char)
  | [], cs => some cs
  | _ :: _, [] => none
  | p :: ps, c :: cs => if p = c then dropStart? ps cs else none

/-- The text before `ending`, if it closes with `ending`. -/
def dropEnd? (ending cs : List Char) : Option (List Char) :=
  (dropStart? ending.reverse cs.reverse).map List.reverse

/-- The parts before and after the first occurrence of `pattern`. -/
def splitFirst? (pattern : List Char) : List Char → Option (List Char × List Char)
  | [] => (dropStart? pattern []).map ([], ·)
  | c :: cs =>
    match dropStart? pattern (c :: cs) with
    | some rest => some ([], rest)
    | none => (splitFirst? pattern cs).map fun (before, after) => (c :: before, after)

theorem eq_append_of_dropStart? {p cs rest : List Char} (h : dropStart? p cs = some rest) :
    cs = p ++ rest := by
  fun_induction dropStart? p cs with
  | case1 => simpa using h
  | case2 => simp at h
  | case3 _ _ _ ih => simp [ih h]
  | case4 => simp at h

theorem dropStart?_append (p rest : List Char) : dropStart? p (p ++ rest) = some rest := by
  induction p with
  | nil => simp [dropStart?]
  | cons c p ih => simp [dropStart?, ih]

theorem eq_append_of_dropEnd? {e cs before : List Char} (h : dropEnd? e cs = some before) :
    cs = before ++ e := by
  obtain ⟨r, hr, rfl⟩ := Option.map_eq_some_iff.1 h
  have := congrArg List.reverse (eq_append_of_dropStart? hr)
  simpa using this

theorem eq_append_of_splitFirst? {p cs before after : List Char}
    (h : splitFirst? p cs = some (before, after)) : cs = before ++ p ++ after := by
  induction cs generalizing before with
  | nil =>
    obtain ⟨r, hr, he⟩ := Option.map_eq_some_iff.1 h
    cases he
    simpa using eq_append_of_dropStart? hr
  | cons c cs ih =>
    unfold splitFirst? at h
    split at h
    · rename_i rest hr
      cases h
      simpa using eq_append_of_dropStart? hr
    · obtain ⟨⟨b, a⟩, hb, he⟩ := Option.map_eq_some_iff.1 h
      cases he
      simp [ih hb]

/-- Every occurrence of `pattern`, read from the left, gives way to `replacement`. -/
def replaceAll (pattern replacement : List Char) (cs : List Char) : List Char :=
  match h : splitFirst? pattern cs with
  | none => cs
  | some (before, after) =>
    if hp : pattern = [] then cs else
      have : after.length < cs.length := by
        have := congrArg List.length (eq_append_of_splitFirst? h)
        have : 0 < pattern.length := List.length_pos_iff.mpr hp
        simp at *
        omega
      before ++ replacement ++ replaceAll pattern replacement after
termination_by cs.length

/-- The runs of characters between the characters that `separates` holds of. -/
def pieces (separates : Char → Bool) : List Char → List (List Char)
  | [] => [[]]
  | c :: cs =>
    if separates c then [] :: pieces separates cs
    else match pieces separates cs with
      | [] => [[c]]
      | piece :: rest => (c :: piece) :: rest

theorem pieces_ne_nil (separates : Char → Bool) (cs : List Char) : pieces separates cs ≠ [] := by
  cases cs with
  | nil => simp [pieces]
  | cons c cs =>
    unfold pieces
    split
    · simp
    · split <;> simp

/-- No piece holds a separator. -/
theorem not_separates_of_mem_pieces {separates : Char → Bool} {cs piece : List Char}
    (h : piece ∈ pieces separates cs) : ∀ c ∈ piece, separates c = false := by
  induction cs generalizing piece with
  | nil => simp_all [pieces]
  | cons c cs ih =>
    unfold pieces at h
    split at h
    · rcases List.mem_cons.mp h with rfl | h
      · simp
      · exact ih h
    · rename_i hc
      split at h
      · simp_all
      · rename_i first rest he
        rcases List.mem_cons.mp h with rfl | h
        · intro d hd
          rcases List.mem_cons.mp hd with rfl | hd
          · simpa using hc
          · exact ih (he ▸ List.mem_cons_self) d hd
        · exact ih (he ▸ List.mem_cons_of_mem _ h)

end ApiContract.Text
