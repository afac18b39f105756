import Mathlib.Data.List.Basic
import ApiContract.GoClient.Lexical
import ApiContract.GoClient.Rendering
import ApiContract.Proofs.GoClient.Literal
import ApiContract.Proofs.Text.Range

namespace ApiContract.GoClient

open Text

/-- Where in an expression a character stands. -/
inductive Region where
  | code
  | literal
  | escape
deriving DecidableEq

def Region.after (c : Char) : Region → Region
  | code => if c = '"' then literal else code
  | literal => if c = '"' then code else if c = '\\' then escape else literal
  | escape => literal

/-- Operands with characters before the first one. -/
def joined (cs : List Char) : List (List Char) → List (List Char)
  | [] => [cs]
  | operand :: rest => (cs ++ operand) :: rest

/-- The operands of a concatenation: what the plus signs outside of literals stand between. -/
def operandsFrom : Region → List Char → List (List Char)
  | .code, ' ' :: '+' :: ' ' :: cs => [] :: operandsFrom .code cs
  | _, [] => [[]]
  | region, c :: cs => joined [c] (operandsFrom (region.after c) cs)

/-- The text that an operand denotes, if it is a literal, and else the one that is given for it. -/
def operandText (value : String → String) (operand : List Char) : List Char :=
  match readLiteral? operand with
  | some (text, []) => text
  | _ => (value (String.ofList operand)).toList

/-- The text that a concatenation denotes. -/
def evaluate (value : String → String) (expression : String) : List Char :=
  (operandsFrom .code expression.toList).flatMap (operandText value)

@[simp] theorem joined_joined (cs ds : List Char) (operands : List (List Char)) :
    joined cs (joined ds operands) = joined (cs ++ ds) operands := by
  cases operands <;> simp [joined]

theorem operandsFrom_cons {region : Region} {c : Char} {cs : List Char}
    (h : region = .code → c = ' ' → cs.head? ≠ some '+') :
    operandsFrom region (c :: cs) = joined [c] (operandsFrom (region.after c) cs) := by
  rw [operandsFrom.eq_def]
  split <;> simp_all

theorem operandsFrom_ne_nil (region : Region) (cs : List Char) : operandsFrom region cs ≠ [] := by
  rw [operandsFrom.eq_def]
  split
  · simp
  · simp
  · rename_i c cs _
    cases operandsFrom (region.after c) cs <;> simp [joined]

/-- What is no part of two operands, whatever follows it after a blank. -/
def Whole (operand : List Char) : Prop :=
  ∀ rest, Opens ' ' rest →
    operandsFrom .code (operand ++ rest) = joined operand (operandsFrom .code rest)

/-- There are no quotes and no plus signs in an operand. -/
def Atomic (operand : String) : Prop := ∀ c ∈ operand.toList, c ≠ '"' ∧ c ≠ '+'

instance : DecidablePred Atomic := fun operand =>
  decidable_of_iff (operand.toList.all fun c => c ≠ '"' ∧ c ≠ '+') (by simp [Atomic])

theorem Atomic.whole {operand : String} (h : Atomic operand) : Whole operand.toList := by
  unfold Atomic at h
  intro rest hrest
  generalize operand.toList = cs at h ⊢
  induction cs with
  | nil =>
    cases ho : operandsFrom .code rest with
    | nil => exact absurd ho (operandsFrom_ne_nil _ _)
    | cons first others => simp [joined, ho]
  | cons c cs ih =>
    obtain ⟨⟨hquote, -⟩, hcs⟩ := List.forall_mem_cons.mp h
    have hnext : (cs ++ rest).head? ≠ some '+' := by
      intro hplus
      cases cs with
      | nil => exact absurd (hrest '+' hplus) (by decide)
      | cons d cs => exact (hcs d List.mem_cons_self).2 (Option.some.inj hplus)
    have hcode : Region.code.after c = .code := if_neg hquote
    rw [List.cons_append, operandsFrom_cons fun _ _ => hnext, hcode, ih hcs, joined_joined]
    rfl

theorem operandsFrom_escaped (c : Char) (rest : List Char) :
    operandsFrom .literal (escaped c ++ rest) =
      joined (escaped c) (operandsFrom .literal rest) := by
  have hplain : ∀ {region : Region} {c : Char} {cs : List Char}, region ≠ .code →
      operandsFrom region (c :: cs) = joined [c] (operandsFrom (region.after c) cs) :=
    fun hne => operandsFrom_cons fun he => absurd he hne
  have hdigit : ∀ n < 16, hexDigit n ≠ '"' ∧ hexDigit n ≠ '\\' := by decide
  unfold escaped
  split
  case h_6 hquote hbackslash _ _ _ =>
    split
    · have hhigh := hdigit (c.toNat / 16) (by omega)
      have hlow := hdigit (c.toNat % 16) (by omega)
      simp [hplain, Region.after, hhigh, hlow]
    · have hliteral : Region.literal.after c = .literal := by
        rw [Region.after, if_neg hquote, if_neg hbackslash]
      have hc := @operandsFrom_cons .literal c rest nofun
      rwa [hliteral] at hc
  all_goals simp [hplain, Region.after]

theorem whole_stringLiteral (s : String) : Whole (stringLiteral s).toList := by
  intro rest _
  have hcontent : ∀ cs : List Char, operandsFrom .literal (cs.flatMap escaped ++ '"' :: rest) =
      joined (cs.flatMap escaped ++ ['"']) (operandsFrom .code rest) := by
    intro cs
    induction cs with
    | nil => exact operandsFrom_cons nofun
    | cons c cs ih =>
      rw [List.flatMap_cons, List.append_assoc, operandsFrom_escaped, ih, joined_joined,
        List.append_assoc]
  have hquote : ∀ cs, operandsFrom .code ('"' :: cs) = joined ['"'] (operandsFrom .literal cs) :=
    fun _ => operandsFrom_cons nofun
  simp [stringLiteral, hquote, hcontent]

theorem operandsFrom_intercalate {operands : List (List Char)} (hne : operands ≠ [])
    (h : ∀ operand ∈ operands, Whole operand) :
    operandsFrom .code (" + ".toList.intercalate operands) = operands := by
  induction operands with
  | nil => exact absurd rfl hne
  | cons operand rest ih =>
    obtain ⟨hoperand, hrest⟩ := List.forall_mem_cons.mp h
    cases rest with
    | nil =>
      have hend := hoperand [] (by simp [Opens])
      rw [List.append_nil] at hend
      rw [List.intercalate_singleton, hend]
      simp [operandsFrom, joined]
    | cons next rest =>
      have hblank : ∀ cs, Opens ' ' (" + ".toList ++ cs) := by simp [Opens]
      have hplus : ∀ cs, operandsFrom .code (" + ".toList ++ cs) = [] :: operandsFrom .code cs :=
        fun _ => rfl
      rw [List.intercalate_cons_cons, List.append_assoc, hoperand _ (hblank _), hplus,
        ih (by simp) hrest]
      simp [joined]

/-- The text that a part of a URL denotes. -/
def UrlPart.denoted (value : String → String) : UrlPart → List Char
  | literal s => s.toList
  | argument identifier conversion => (value (conversion.apply identifier)).toList

/-- The argument in a part of a URL is an operand of its own. -/
def UrlPart.Atomic : UrlPart → Prop
  | literal _ => True
  | argument identifier conversion => GoClient.Atomic (conversion.apply identifier)

variable {value : String → String}

theorem UrlPart.Atomic.whole {part : UrlPart} (h : part.Atomic) : Whole part.text.toList := by
  cases part with
  | literal s => exact whole_stringLiteral s
  | argument identifier conversion => exact GoClient.Atomic.whole h

theorem operandText_stringLiteral (s : String) :
    operandText value (stringLiteral s).toList = s.toList := by
  have hread := readLiteral?_stringLiteral s []
  rw [List.append_nil] at hread
  rw [operandText, hread]

theorem operandText_atomic {operand : String} (h : Atomic operand) :
    operandText value operand.toList = (value operand).toList := by
  have hnone : readLiteral? operand.toList = none := by
    unfold readLiteral?
    split
    · rename_i cs ho
      exact absurd rfl (h '"' (ho ▸ List.mem_cons_self)).1
    · rfl
  rw [operandText, hnone, String.ofList_toList]

theorem UrlPart.Atomic.operandText {part : UrlPart} (h : part.Atomic) :
    operandText value part.text.toList = part.denoted value := by
  cases part with
  | literal s => exact operandText_stringLiteral s
  | argument identifier conversion => exact operandText_atomic h

theorem evaluate_urlText (m : MethodDeclaration) (h : ∀ part ∈ m.url, part.Atomic) :
    evaluate value m.urlText = m.url.flatMap (UrlPart.denoted value) := by
  unfold MethodDeclaration.urlText
  split
  · rename_i hempty
    rw [List.isEmpty_iff.mp hempty]
    have hliteral : "\"\"" = stringLiteral "" := rfl
    have hone : operandsFrom .code (stringLiteral "").toList = [(stringLiteral "").toList] := rfl
    rw [hliteral, evaluate, hone, List.flatMap_singleton, operandText_stringLiteral]
    rfl
  · rename_i hne
    have hoperands : operandsFrom .code (" + ".intercalate (m.url.map UrlPart.text)).toList =
        m.url.map fun part => part.text.toList := by
      rw [String.toList_intercalate, List.map_map]
      apply operandsFrom_intercalate
      · simpa using hne
      · intro operand ho
        obtain ⟨part, hpart, rfl⟩ := List.mem_map.mp ho
        exact (h part hpart).whole
    rw [evaluate, hoperands, List.flatMap_map]
    exact List.flatMap_congr fun part hpart => (h part hpart).operandText

theorem atomic_append {first second : String} :
    Atomic (first ++ second) ↔ Atomic first ∧ Atomic second := by
  unfold Atomic
  rw [String.toList_append, List.forall_mem_append]

theorem atomic_argumentName (name : String) : Atomic (argumentName name) := by
  have hcase : Atomic (lowerCamelCase name) := by
    intro c hc
    have hle := le_of_isWordCharacter (isWordCharacter_of_mem_lowerCamelCase name c hc)
    constructor
    · rintro rfl
      exact absurd hle (by decide)
    · rintro rfl
      exact absurd hle (by decide)
  unfold argumentName spared
  split
  · exact atomic_append.mpr ⟨hcase, by decide⟩
  · exact hcase

theorem atomic_apply {operand : String} (h : Atomic operand) (conversion : Conversion) :
    Atomic (conversion.apply operand) := by
  cases conversion with
  | identity => exact h
  | decimalFloat | decimalInteger | truncatedFloat | truthValue =>
    exact atomic_append.mpr ⟨atomic_append.mpr ⟨by decide, h⟩, by decide⟩

end ApiContract.GoClient
