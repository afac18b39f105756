import ApiContract.Document.Operation
import ApiContract.Proofs.Members
import ApiContract.Proofs.Text.Digits
import Mathlib.Data.List.Nodup
import Mathlib.Data.List.Pairwise

namespace ApiContract

/-- A key is the digits of a code, behind any zeros and a plus sign or none. -/
def SpellsCode (key : String) (code : Nat) : Prop :=
  ∃ sign ∈ [[], ['+']], ∃ zeros,
    key.toList = sign ++ (List.replicate zeros '0' ++ (toString code).toList)

theorem spellsCode_toString (code : Nat) : SpellsCode (toString code) code :=
  ⟨[], List.mem_cons_self, 0, rfl⟩

variable {key : String} {code : Nat}

/-- The digits of a key, behind its plus sign if there is one. -/
def unsigned : List Char → List Char
  | '+' :: rest => rest
  | cs => cs

theorem exists_sign (cs : List Char) : ∃ sign ∈ [[], ['+']], cs = sign ++ unsigned cs := by
  unfold unsigned
  split
  · exact ⟨['+'], by simp, rfl⟩
  · exact ⟨[], by simp, rfl⟩

theorem unsigned_append {sign ds : List Char} (hsign : sign ∈ [[], ['+']])
    (hd : ∀ c ∈ ds, c.isDigit = true) : unsigned (sign ++ ds) = ds := by
  have hplus : ('+' : Char).isDigit = false := by decide
  rcases List.mem_cons.mp hsign with rfl | hsign
  · unfold unsigned
    split
    · rename_i rest he
      rw [List.nil_append] at he
      have hdigit := hd '+' (he ▸ List.mem_cons_self)
      rw [hplus] at hdigit
      cases hdigit
    · rfl
  · obtain rfl := List.mem_singleton.mp hsign
    rfl

theorem statusCode?_eq (key : String) :
    statusCode? key =
      if unsigned key.toList = [] ∨ ¬ (unsigned key.toList).all Char.isDigit then none
      else if Nat.ofDigitChars 10 (unsigned key.toList) 0 < 65536 then
        some (Nat.ofDigitChars 10 (unsigned key.toList) 0)
      else none := by
  rfl

/-- A key denotes a code of sixteen bits if it spells it. -/
theorem statusCode?_eq_some_iff :
    statusCode? key = some code ↔ code < 65536 ∧ SpellsCode key code := by
  rw [statusCode?_eq]
  constructor
  · intro h
    split at h
    · cases h
    · rename_i hdigits
      obtain ⟨hne, hall⟩ := not_or.mp hdigits
      have hall := List.all_eq_true.mp (Decidable.not_not.mp hall)
      split at h
      · rename_i hlt
        cases h
        obtain ⟨sign, hsign, hkey⟩ := exists_sign key.toList
        obtain ⟨zeros, hzeros⟩ := exists_zeros hne hall
        refine ⟨hlt, sign, hsign, zeros, ?_⟩
        rw [toList_toString, ← hzeros, ← hkey]
      · cases h
  · rintro ⟨hlt, sign, hsign, zeros, hkey⟩
    rw [toList_toString] at hkey
    have hall : ∀ c ∈ List.replicate zeros '0' ++ Nat.toDigits 10 code, c.isDigit = true := by
      intro c hc
      rcases List.mem_append.mp hc with hc | hc
      · rw [List.eq_of_mem_replicate hc]
        decide
      · exact isDigit_toDigits code c hc
    have hvalue :
        Nat.ofDigitChars 10 (List.replicate zeros '0' ++ Nat.toDigits 10 code) 0 = code := by
      rw [ofDigitChars_zeros, Nat.ofDigitChars_toDigits (by decide) (by decide)]
    rw [hkey, unsigned_append hsign hall, hvalue, if_neg, if_pos hlt]
    simp only [not_or, Decidable.not_not]
    exact ⟨by simp [Nat.toDigits_ne_nil], List.all_eq_true.mpr hall⟩

/-- A status code is read back from its digits. -/
theorem statusCode?_toString {n : Nat} (h : n < 65536) : statusCode? (toString n) = some n :=
  statusCode?_eq_some_iff.mpr ⟨h, spellsCode_toString n⟩

namespace Operation

variable {op : Operation}

/-- The responses whose key is a status code, as the document lists them. -/
def numbered (op : Operation) : List (Nat × Response) :=
  op.responses.filterMap fun (key, r) => (statusCode? key).map (·, r)

theorem insertByCode_perm (q : Nat × Response) (rs : List (Nat × Response)) :
    (insertByCode q rs).Perm (q :: rs) := by
  induction rs with
  | nil => exact .refl _
  | cons r rest ih =>
    unfold insertByCode
    split
    · exact .refl _
    · exact (ih.cons r).trans (.swap q r rest)

theorem pairwise_insertByCode {q : Nat × Response} {rs : List (Nat × Response)}
    (h : rs.Pairwise fun r t => r.1 ≤ t.1) :
    (insertByCode q rs).Pairwise fun r t => r.1 ≤ t.1 := by
  induction rs with
  | nil => exact List.pairwise_singleton _ q
  | cons r rest ih =>
    obtain ⟨hr, hrest⟩ := List.pairwise_cons.mp h
    unfold insertByCode
    split
    · rename_i hq
      refine List.pairwise_cons.mpr ⟨?_, h⟩
      intro t ht
      rcases List.mem_cons.mp ht with rfl | ht
      · exact hq
      · exact Nat.le_trans hq (hr t ht)
    · rename_i hq
      refine List.pairwise_cons.mpr ⟨?_, ih hrest⟩
      intro t ht
      rcases List.mem_cons.mp ((insertByCode_perm q rest).mem_iff.mp ht) with rfl | ht
      · exact Nat.le_of_not_le hq
      · exact hr t ht

theorem statusCodes_perm (op : Operation) : op.statusCodes.Perm op.numbered := by
  have hsort : ∀ rs : List (Nat × Response), (rs.foldr insertByCode []).Perm rs := by
    intro rs
    induction rs with
    | nil => exact .refl _
    | cons q rest ih => exact (insertByCode_perm q _).trans (ih.cons q)
  exact hsort op.numbered

theorem pairwise_statusCodes (op : Operation) :
    op.statusCodes.Pairwise fun q r => q.1 ≤ r.1 := by
  have hsort : ∀ rs : List (Nat × Response),
      (rs.foldr insertByCode []).Pairwise fun q r => q.1 ≤ r.1 := by
    intro rs
    induction rs with
    | nil => exact .nil
    | cons q rest ih => exact pairwise_insertByCode ih
  exact hsort op.numbered

theorem ascending_of_nodup (h : (op.statusCodes.map Prod.fst).Nodup) :
    op.statusCodes.Pairwise fun q r => q.1 < r.1 := by
  have hcodes := List.pairwise_map.mp h
  refine (op.pairwise_statusCodes.and hcodes).imp ?_
  rintro q r ⟨hle, hne⟩
  omega

/-- The responses with a code are those whose key denotes it. -/
theorem mem_statusCodes {q : Nat × Response} :
    q ∈ op.statusCodes ↔ ∃ key, (key, q.2) ∈ op.responses ∧ statusCode? key = some q.1 := by
  rw [op.statusCodes_perm.mem_iff, numbered, List.mem_filterMap]
  constructor
  · rintro ⟨⟨key, r⟩, hmem, hpair⟩
    obtain ⟨code, hcode, rfl⟩ := Option.map_eq_some_iff.mp hpair
    exact ⟨key, hmem, hcode⟩
  · rintro ⟨key, hmem, hcode⟩
    exact ⟨(key, q.2), hmem, by simp [hcode]⟩

/-- The status codes that the keys of the responses denote, as the document lists them. -/
def codes (op : Operation) : List Nat := op.responses.names.filterMap statusCode?

theorem map_numbered (op : Operation) : op.numbered.map Prod.fst = op.codes := by
  rw [numbered, List.map_filterMap, codes, Members.names, List.filterMap_map]
  congr 1
  funext p
  cases h : statusCode? p.1 <;> simp [h]

theorem map_statusCodes_perm (op : Operation) : (op.statusCodes.map Prod.fst).Perm op.codes := by
  rw [← op.map_numbered]
  exact op.statusCodes_perm.map Prod.fst

/-- Different keys of one code are two entries among the codes. -/
theorem not_nodup_codes {other : String}
    (hkey : key ∈ op.responses.names) (hother : other ∈ op.responses.names) (hne : key ≠ other)
    (hcode : statusCode? key = some code) (hsame : statusCode? other = some code) :
    ¬ op.codes.Nodup := by
  intro hn
  have hsymm : Std.Symm fun a b => ∀ c ∈ statusCode? a, ∀ c' ∈ statusCode? b, c ≠ c' :=
    ⟨fun _ _ h c hc c' hc' => (h c' hc' c hc).symm⟩
  have hpairs := List.pairwise_filterMap.mp hn
  exact hpairs.forall hkey hother hne code hcode code hsame rfl

end Operation

end ApiContract
