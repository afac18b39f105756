import ApiContract.Naming
import ApiContract.Proofs.Text.Ascii

namespace ApiContract

namespace Text

/-- Characters can stand for another: some letters for a letter, and a decimal digit for itself. -/
def standsFor (c : Char) (out : List Char) : Bool :=
  !out.isEmpty && if isLetter c then out.all isLetter else isDecimal c && out = [c]

/-- A character that ends a segment, or a letter that consists of letters in every case, or a
decimal digit. -/
def isPlain (c : Char) : Bool :=
  !isAlphanumeric c || standsFor c (toUppercase c) && standsFor c (toLowercase c)

/-- The characters of ASCII are plain: the other case of a letter is a letter, and a digit has no
other case. -/
theorem isPlain_of_ascii {c : Char} (hc : c.toNat < 0x80) : isPlain c := by
  rw [isPlain, isAlphanumeric_of_ascii hc, toUppercase_of_ascii hc, toLowercase_of_ascii hc]
  by_cases hletter : c.isAlpha
  · have hself : isLetter c := isLetter_of_isAlpha hletter
    have hraised : isLetter c.toUpper := isLetter_of_isAlpha (by rwa [isAlpha_toUpper])
    have hlowered : isLetter c.toLower := isLetter_of_isAlpha (by rwa [isAlpha_toLower])
    simp [standsFor, hself, hraised, hlowered]
  · simp [standsFor, isLetter_of_ascii hc, isDecimal_of_ascii hc, toUpper_eq_self hletter,
      toLower_eq_self hletter, hletter, Char.isAlphanum]

/-- Alphanumeric characters, all of them plain. -/
def Spellable (cs : List Char) : Prop := ∀ c ∈ cs, isAlphanumeric c ∧ isPlain c

/-- Of a text the alphanumeric characters, each in one case or another. -/
inductive Spells : List Char → List Char → Prop
  | nil : Spells [] []
  | cons {c : Char} {cs part out : List Char} :
      standsFor c part → Spells cs out → Spells (c :: cs) (part ++ out)

variable {c : Char} {cs ds part out more : List Char}

theorem Spells.append (h : Spells cs out) (hmore : Spells ds more) :
    Spells (cs ++ ds) (out ++ more) := by
  induction h with
  | nil => exact hmore
  | cons hc _ ih =>
    rw [List.append_assoc]
    exact .cons hc ih

theorem Spells.flatMap {f : List Char → List Char} {pieces : List (List Char)}
    (h : ∀ piece ∈ pieces, Spells piece (f piece)) : Spells pieces.flatten (pieces.flatMap f) := by
  induction pieces with
  | nil => exact .nil
  | cons piece rest ih =>
    obtain ⟨hpiece, hrest⟩ := List.forall_mem_cons.mp h
    rw [List.flatten_cons, List.flatMap_cons]
    exact hpiece.append (ih hrest)

/-- A part is made of letters, or it is the decimal digit itself. -/
theorem parts_of_standsFor (h : standsFor c part) : ∀ x ∈ part, isLetter x || isDecimal x := by
  unfold standsFor at h
  intro x hx
  split at h
  · simp_all
  · simp_all

theorem Spells.parts (h : Spells cs out) : ∀ x ∈ out, isLetter x || isDecimal x := by
  induction h with
  | nil => exact fun _ hx => absurd hx List.not_mem_nil
  | cons hc _ ih => exact List.forall_mem_append.mpr ⟨parts_of_standsFor hc, ih⟩

/-- A spelling begins with a letter if the text does, and otherwise with the same decimal digit. -/
theorem Spells.head (h : Spells cs out) :
    Option.Rel (fun c x => isLetter x = isLetter c ∧ (isLetter c = false → x = c))
      cs.head? out.head? := by
  cases h with
  | nil => exact .none
  | @cons c cs part out hc _ =>
    unfold standsFor at hc
    cases part with
    | nil => simp at hc
    | cons x part =>
      apply Option.Rel.some
      split at hc
      · simp_all
      · simp_all

theorem standsFor_self (hplain : standsFor c part) : standsFor c [c] := by
  unfold standsFor at hplain ⊢
  split at hplain
  · simp_all
  · simp_all

theorem Spellable.cases (h : Spellable (c :: cs)) :
    (standsFor c (toUppercase c) ∧ standsFor c (toLowercase c)) ∧ Spellable cs := by
  obtain ⟨⟨halphanumeric, hplain⟩, hrest⟩ := List.forall_mem_cons.mp h
  exact ⟨by simpa [isPlain, halphanumeric] using hplain, hrest⟩

theorem Spellable.self (h : Spellable cs) : Spells cs cs := by
  induction cs with
  | nil => exact .nil
  | cons c cs ih =>
    obtain ⟨⟨hupper, -⟩, hrest⟩ := h.cases
    exact .cons (standsFor_self hupper) (ih hrest)

theorem Spellable.raiseFirst (h : Spellable cs) : Spells cs (Naming.raiseFirst cs) := by
  cases cs with
  | nil => exact .nil
  | cons c cs =>
    obtain ⟨⟨hupper, -⟩, hrest⟩ := h.cases
    exact .cons hupper hrest.self

/-- The small sigma at the end of a word is a letter too. -/
theorem Spellable.lowered (h : Spellable cs) : Spells cs (lowered cs) := by
  fun_induction Text.lowered cs with
  | case1 => exact .nil
  | case2 =>
    have hsigma : standsFor 'Σ' ['ς'] := by decide
    simpa using Spells.cons hsigma .nil
  | case3 c hc =>
    obtain ⟨⟨-, hlower⟩, -⟩ := h.cases
    simpa using Spells.cons hlower .nil
  | case4 c d rest ih =>
    obtain ⟨⟨-, hlower⟩, hrest⟩ := h.cases
    exact .cons hlower (ih hrest)

theorem Spellable.capitalized (h : Spellable cs) : Spells cs (capitalized cs) := by
  cases cs with
  | nil => exact .nil
  | cons c cs =>
    obtain ⟨⟨hupper, -⟩, hrest⟩ := h.cases
    exact .cons hupper hrest.lowered

theorem flatten_pieces (separates : Char → Bool) (cs : List Char) :
    (pieces separates cs).flatten = cs.filter fun c => !separates c := by
  induction cs with
  | nil => rfl
  | cons c cs ih =>
    rw [pieces, List.filter_cons]
    split
    · simp_all
    · cases hp : pieces separates cs with
      | nil => exact absurd hp (pieces_ne_nil separates cs)
      | cons piece rest => simp_all

theorem flatten_words (cs : List Char) : (words cs).flatten = cs.filter isAlphanumeric := by
  have hwords : ∀ piece, (wordsFrom .boundary [] piece).flatten = piece := by
    intro piece
    cases piece with
    | nil => rfl
    | cons c rest => exact flatten_wordsFrom _ _ _ (by simp)
  have hpieces : ∀ pieces : List (List Char),
      (pieces.flatMap (wordsFrom .boundary [])).flatten = pieces.flatten := by
    intro pieces
    induction pieces with
    | nil => rfl
    | cons piece rest ih => simp [hwords, ih]
  rw [words, hpieces, flatten_pieces]
  simp

/-- A name all of whose characters are plain. -/
def Plain (name : String) : Prop := ∀ c ∈ name.toList, isPlain c

instance : DecidablePred Plain := fun name =>
  decidable_of_iff (name.toList.all isPlain) List.all_eq_true

/-- The characters of a name that its spellings take up. -/
def core (name : String) : List Char := name.toList.filter isAlphanumeric

variable {name : String}

theorem Plain.spellable (h : Plain name) : Spellable (core name) := by
  intro c hc
  obtain ⟨hm, halphanumeric⟩ := List.mem_filter.mp hc
  exact ⟨halphanumeric, h c hm⟩

theorem Spellable.of_mem {words : List (List Char)} {word : List Char}
    (h : Spellable words.flatten) (hw : word ∈ words) : Spellable word :=
  fun c hc => h c (List.mem_flatten.mpr ⟨word, hw, hc⟩)

theorem Plain.word (h : Plain name) {word : List Char} (hw : word ∈ words name.toList) :
    Spellable word := by
  have hwords : Spellable (words name.toList).flatten := by
    rw [flatten_words]
    exact h.spellable
  exact hwords.of_mem hw

theorem Plain.pascalCase (h : Plain name) : Spells (core name) (pascalCase name).toList := by
  rw [Text.pascalCase, String.toList_ofList, core, ← flatten_words]
  exact .flatMap fun word hw => (h.word hw).capitalized

theorem Plain.lowerCamelCase (h : Plain name) :
    Spells (core name) (lowerCamelCase name).toList := by
  have hword : ∀ word ∈ words name.toList, Spellable word := fun _ hw => h.word hw
  rw [core, ← flatten_words, Text.lowerCamelCase]
  cases hw : words name.toList with
  | nil => exact .nil
  | cons word rest =>
    rw [hw] at hword
    obtain ⟨hfirst, hrest⟩ := List.forall_mem_cons.mp hword
    rw [String.toList_ofList, List.flatten_cons]
    exact hfirst.lowered.append (.flatMap fun word hm => (hrest word hm).capitalized)

theorem Plain.camelCase (h : Plain name) :
    Spells (core name) (Naming.camelCase name).toList := by
  have hseparates : ∀ c, (!Naming.separates c) = isAlphanumeric c := by
    intro c
    by_cases hc : c = '_'
    · subst hc
      rw [isAlphanumeric_of_ascii (by decide)]
      rfl
    · simp [Naming.separates, hc]
  have hcore : (pieces Naming.separates name.toList).flatten = core name := by
    simp only [flatten_pieces, hseparates, core]
  have hpieces : Spellable (pieces Naming.separates name.toList).flatten := by
    rw [hcore]
    exact h.spellable
  rw [Naming.camelCase, String.toList_ofList, ← hcore]
  exact .flatMap fun piece hm => (hpieces.of_mem hm).raiseFirst

theorem mem_of_mem_replaceAll {pattern replacement : List Char}
    (h : c ∈ replaceAll pattern replacement cs) : c ∈ cs ∨ c ∈ replacement := by
  fun_induction replaceAll pattern replacement cs with
  | case1 cs hs => exact Or.inl h
  | case2 cs before after hs hp => exact Or.inl h
  | case3 cs before after hs hp _ ih =>
    rw [eq_append_of_splitFirst? hs]
    simp only [List.mem_append] at h ⊢
    rcases h with (h | h) | h
    · exact Or.inl (Or.inl (Or.inl h))
    · exact Or.inr h
    · exact (ih h).imp Or.inr id

theorem Plain.withoutArticles (h : Plain name) : Plain (Naming.withoutArticles name) := by
  have hdash : ∀ c ∈ ['-'], isPlain c :=
    List.forall_mem_singleton.mpr (isPlain_of_ascii (by decide))
  intro c hc
  rw [Naming.withoutArticles, String.toList_ofList] at hc
  rcases mem_of_mem_replaceAll hc with hc | hc
  · rcases mem_of_mem_replaceAll hc with hc | hc
    · exact h c hc
    · exact hdash c hc
  · exact hdash c hc

/-- A singular is spelt with the letters of the plural, and perhaps with a last one of its own. -/
theorem mem_of_mem_singular {word : List Char} (h : c ∈ Naming.singular word) :
    c ∈ word ∨ c = 'y' := by
  unfold Naming.singular at h
  split at h
  · rename_i stem hs
    obtain ⟨hs, -⟩ := Option.filter_eq_some_iff.mp hs
    rw [eq_append_of_dropEnd? hs]
    simp only [List.mem_append, List.mem_singleton] at h ⊢
    exact h.imp Or.inl id
  · split at h
    · exact Or.inl (List.mem_of_mem_take h)
    · split at h
      · rename_i stem hs
        split at h
        · rw [eq_append_of_dropEnd? hs]
          exact Or.inl (List.mem_append_left _ h)
        · exact Or.inl h
      · exact Or.inl h

theorem mem_of_mem_routeWords {single : Bool} {segments : List (List Char)} {word : List Char}
    (hw : word ∈ Naming.routeWords single segments) (hc : c ∈ word) :
    (∃ segment ∈ segments, c ∈ segment) ∨ c = 'y' := by
  fun_induction Naming.routeWords single segments with
  | case1 => cases hw
  | case2 last =>
    obtain rfl := List.mem_singleton.mp hw
    split at hc
    · exact (mem_of_mem_singular hc).imp (fun h => ⟨last, List.mem_singleton_self last, h⟩) id
    · exact Or.inl ⟨last, List.mem_singleton_self last, hc⟩
  | case3 segment rest _ ih =>
    rcases List.mem_cons.mp hw with rfl | hw
    · exact Or.inl ⟨_, List.mem_cons_self, hc⟩
    · rcases ih hw with ⟨other, ho, hm⟩ | hy
      · exact Or.inl ⟨other, List.mem_cons_of_mem _ ho, hm⟩
      · exact Or.inr hy

theorem mem_of_mem_pieces {separates : Char → Bool} {piece : List Char}
    (hp : piece ∈ pieces separates cs) (hc : c ∈ piece) : c ∈ cs := by
  have hm : c ∈ (pieces separates cs).flatten := List.mem_flatten.mpr ⟨piece, hp, hc⟩
  rw [flatten_pieces] at hm
  exact (List.mem_filter.mp hm).1

/-- After its verb the name of a route is made of letters and decimal digits. -/
theorem parts_of_routeName {path : String} (h : Plain path) (method : String) :
    ∃ single rest, Naming.routeName method path = Naming.routeVerb method single ++ rest ∧
      ∀ x ∈ rest.toList, isLetter x || isDecimal x := by
  refine ⟨_, _, rfl, ?_⟩
  rw [String.toList_join]
  intro x hx
  obtain ⟨_, hm, hx⟩ := List.mem_flatMap.mp hx
  obtain ⟨word, hw, rfl⟩ := List.mem_map.mp hm
  have hplain : Plain (String.ofList word) := by
    intro c hc
    rw [String.toList_ofList] at hc
    rcases mem_of_mem_routeWords hw hc with ⟨segment, hs, hc⟩ | rfl
    · have hp := (List.mem_filter.mp (List.mem_filter.mp hs).1).1
      exact h c (mem_of_mem_pieces hp hc)
    · exact isPlain_of_ascii (by decide)
  exact hplain.pascalCase.parts x hx

end Text

end ApiContract
