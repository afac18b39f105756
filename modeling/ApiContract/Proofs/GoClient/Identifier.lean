import ApiContract.Document.Operation
import ApiContract.GoClient.Lexical
import ApiContract.Proofs.Text.Spelling

namespace ApiContract.GoClient

open Text Naming

def isIdentifierPart (c : Char) : Bool := isLetter c || isDecimal c || c = '_'

/-- An identifier begins with a letter or an underscore, and decimal digits may follow too. -/
def isIdentifier (s : String) : Bool :=
  s.toList.head?.any (fun c => isLetter c || c = '_') && s.toList.all isIdentifierPart

variable {a b name property : String} {cs : List Char}

theorem isIdentifier_iff :
    isIdentifier a ↔ (∃ c ∈ a.toList.head?, isLetter c || c = '_') ∧
      ∀ c ∈ a.toList, isIdentifierPart c := by
  simp [isIdentifier, Option.any_eq_true]

theorem parts_of_isIdentifier (h : isIdentifier a) : ∀ c ∈ a.toList, isIdentifierPart c :=
  (isIdentifier_iff.mp h).2

theorem isIdentifier_append (ha : isIdentifier a) (hb : ∀ c ∈ b.toList, isIdentifierPart c) :
    isIdentifier (a ++ b) := by
  obtain ⟨⟨c, hc, hstart⟩, hparts⟩ := isIdentifier_iff.mp ha
  rw [isIdentifier_iff, String.toList_append]
  exact ⟨⟨c, by simp [Option.mem_def.mp hc], hstart⟩, List.forall_mem_append.mpr ⟨hparts, hb⟩⟩

theorem isIdentifier_append_isIdentifier (ha : isIdentifier a) (hb : isIdentifier b) :
    isIdentifier (a ++ b) :=
  isIdentifier_append ha (parts_of_isIdentifier hb)

/-- Letters and digits of ASCII, a letter first. -/
theorem isIdentifier_of_ascii
    (h : a.toList.head?.any Char.isAlpha && a.toList.all Char.isAlphanum) : isIdentifier a := by
  obtain ⟨hhead, hall⟩ := Bool.and_eq_true_iff.mp h
  obtain ⟨c, hc, hletter⟩ := (Option.any_eq_true _ _).mp hhead
  refine isIdentifier_iff.mpr ⟨⟨c, hc, by simp [isLetter_of_isAlpha hletter]⟩, fun d hd => ?_⟩
  have hd := List.all_eq_true.mp hall d hd
  rw [Char.isAlphanum, Bool.or_eq_true] at hd
  rcases hd with hletter | hdigit
  · simp [isIdentifierPart, isLetter_of_isAlpha hletter]
  · simp [isIdentifierPart, isDecimal_of_isDigit hdigit]

theorem isIdentifier_underscore : isIdentifier "_" := by
  simp [isIdentifier, isIdentifierPart]

theorem isIdentifierPart_of_parts (h : ∀ c ∈ cs, isLetter c || isDecimal c) :
    ∀ c ∈ cs, isIdentifierPart c := by
  intro c hc
  rw [isIdentifierPart, h c hc]
  rfl

theorem parts_of_fieldName (h : isIdentifier (fieldName property)) :
    ∀ c ∈ (camelCase property).toList, isIdentifierPart c := by
  have hparts := parts_of_isIdentifier h
  unfold fieldName at hparts
  dsimp only at hparts
  split at hparts
  · rename_i hnil
    simp [hnil]
  · split at hparts
    · rw [String.toList_append] at hparts
      exact (List.forall_mem_append.mp hparts).2
    · exact hparts

theorem isIdentifier_nestedTypeName {parent : String} (h : isIdentifier parent)
    (hp : isIdentifier (fieldName property)) : isIdentifier (nestedTypeName parent property) :=
  isIdentifier_append (isIdentifier_append_isIdentifier h isIdentifier_underscore)
    (parts_of_fieldName hp)

theorem parts_of_digits (n : Nat) : ∀ c ∈ (toString n).toList, isIdentifierPart c := by
  intro c hc
  have hrepr : (toString n).toList = Nat.toDigits 10 n := Nat.toList_repr
  rw [hrepr] at hc
  have hdigit := Nat.isDigit_of_mem_toDigits (by decide) (by decide) hc
  simp [isIdentifierPart, isDecimal_of_isDigit hdigit]

/-- The underscore neither makes nor spoils an identifier. -/
theorem isIdentifier_spared : isIdentifier (spared name) ↔ isIdentifier name := by
  have hascii : ∀ reserved ∈ keywords ++ methodLocals,
      reserved.toList.head?.any Char.isAlpha && reserved.toList.all Char.isAlphanum := by
    decide
  unfold spared
  split
  · rename_i hm
    have hname := isIdentifier_of_ascii (hascii name hm)
    have hunderscore : isIdentifier (name ++ "_") :=
      isIdentifier_append_isIdentifier hname isIdentifier_underscore
    simp [hname, hunderscore]
  · exact Iff.rfl

/-- The first alphanumeric character is a letter. -/
def beginsWithLetter (name : String) : Bool := (core name).head?.any isLetter

/-- The first alphanumeric character, if there is one, is a letter or a digit of ASCII. -/
def beginsField (property : String) : Bool :=
  (core property).head?.all fun c => isLetter c || c.isDigit

theorem isIdentifier_of_spells (h : Spells cs name.toList) :
    isIdentifier name ↔ cs.head?.any isLetter := by
  have hunderscore : (isLetter '_' || isDecimal '_') = false := by
    rw [isLetter_of_ascii (by decide), isDecimal_of_ascii (by decide)]
    rfl
  have hall : name.toList.all isIdentifierPart = true :=
    List.all_eq_true.mpr (isIdentifierPart_of_parts h.parts)
  have hhead := h.head
  rw [isIdentifier, hall, Bool.and_true]
  cases hx : name.toList.head? with
  | none =>
    rw [hx] at hhead
    generalize cs.head? = first at hhead
    cases hhead
    rfl
  | some x =>
    have hne : x ≠ '_' := by
      rintro rfl
      have hpart := h.parts _ (List.mem_of_mem_head? hx)
      rw [hunderscore] at hpart
      cases hpart
    rw [hx] at hhead
    generalize cs.head? = first at hhead
    cases hhead with
    | some hc => simp [hc.1, hne]

theorem isIdentifier_camelCase (h : Plain name) :
    isIdentifier (camelCase name) ↔ beginsWithLetter name :=
  isIdentifier_of_spells h.camelCase

theorem isIdentifier_fieldName (h : Plain property) :
    isIdentifier (fieldName property) ↔ beginsField property := by
  have hhead := h.camelCase.head
  have hspells := isIdentifier_of_spells h.camelCase
  unfold fieldName beginsField
  dsimp only
  split
  · rename_i hnil
    rw [hnil] at hhead
    generalize (core property).head? = first at hhead
    cases hhead
    simp [isIdentifier_of_ascii]
  · rename_i x rest hcons
    rw [hcons, List.head?_cons] at hhead
    generalize (core property).head? = first at hhead hspells
    cases hhead with
    | @some c _ hc =>
      obtain ⟨hletter, hsame⟩ := hc
      split
      · rename_i hdigit
        have hx : isIdentifier ("X" ++ camelCase property) :=
          isIdentifier_append (isIdentifier_of_ascii rfl)
            (isIdentifierPart_of_parts h.camelCase.parts)
        cases hl : isLetter c with
        | true => simp [hx, hl]
        | false => simp [hx, ← hsame hl, hdigit]
      · rename_i hdigit
        rw [hspells]
        cases hl : isLetter c with
        | true => simp [hl]
        | false => simp [← hsame hl, hdigit]

theorem isIdentifier_argumentName (h : Plain name) :
    isIdentifier (argumentName name) ↔ beginsWithLetter name := by
  rw [argumentName, isIdentifier_spared]
  exact isIdentifier_of_spells h.lowerCamelCase

/-- A name made from a route begins with the verb. -/
theorem isIdentifier_routeName {path : String} (h : Plain path) (method : Method) :
    isIdentifier (routeName method.name path) := by
  have hverb : ∀ single, isIdentifier (routeVerb method.name single) := by
    cases method <;> decide +kernel
  obtain ⟨single, rest, hname, hparts⟩ := parts_of_routeName h method.name
  rw [hname]
  exact isIdentifier_append (hverb single) (isIdentifierPart_of_parts hparts)

theorem isIdentifier_operationName {identifier : Option String} {path : String}
    (h : Plain ((identifier.filter (· ≠ "")).getD path)) (method : Method) :
    isIdentifier (operationName identifier method.name path) ↔
      ∀ name ∈ identifier.filter (· ≠ ""), beginsWithLetter (withoutArticles name) := by
  unfold operationName
  cases hi : identifier.filter (· ≠ "") with
  | none =>
    rw [hi] at h
    have hroute : isIdentifier (routeName method.name path) := isIdentifier_routeName h method
    simp [hroute]
  | some name =>
    rw [hi] at h
    have hplain : Plain (withoutArticles name) := Plain.withoutArticles h
    simp [isIdentifier_of_spells hplain.pascalCase, beginsWithLetter]

end ApiContract.GoClient
