import ApiContract.Naming
import ApiContract.Proofs.Text.Ascii
import Mathlib.Data.List.Basic

namespace ApiContract.Text

open Naming

/-- A small letter of ASCII, then small letters and digits. -/
def isSnakeWord (word : List Char) : Bool :=
  word.head?.any Char.isLower && word.all fun c => c.isLower || c.isDigit

def isSnakeCase (name : String) : Bool := (pieces (· = '_') name.toList).all isSnakeWord

/-- A capital begins a word; other characters stand for themselves. -/
def uncapitalized (c : Char) : List Char := if c.isUpper then ['_', c.toLower] else [c]

variable {c : Char} {cs word : List Char} {name : String}

theorem uncapitalized_toUpper (h : c.isLower) : uncapitalized c.toUpper = ['_', c] := by
  have hrange := isLower_iff.mp h
  have hnat : c.toUpper.toNat = c.toNat - 0x20 := by rw [toNat_toUpper, if_pos hrange]
  have hupper : c.toUpper.isUpper := isUpper_iff.mpr (by omega)
  have hback : c.toUpper.toLower = c := by
    rw [← Char.toNat_inj, toNat_toLower, hnat, if_pos (by omega)]
    omega
  rw [uncapitalized, if_pos hupper, hback]

theorem uncapitalized_of_snake (h : c.isLower || c.isDigit) : uncapitalized c = [c] := by
  have hupper : ¬ c.isUpper := by
    rw [Bool.or_eq_true, isLower_iff, isDigit_iff] at h
    rw [isUpper_iff]
    omega
  rw [uncapitalized, if_neg hupper]

/-- A word that begins with a capital is told by it. -/
theorem flatMap_uncapitalized_raiseFirst (h : isSnakeWord word) :
    (raiseFirst word).flatMap uncapitalized = '_' :: word := by
  cases word with
  | nil => cases h
  | cons c rest =>
    obtain ⟨hc, hall⟩ := Bool.and_eq_true_iff.mp h
    rw [List.head?_cons, Option.any_some] at hc
    have hrest : rest.flatMap uncapitalized = rest := by
      have hself : ∀ d ∈ rest, uncapitalized d = [d] := fun d hd =>
        uncapitalized_of_snake (List.all_eq_true.mp hall d (List.mem_cons_of_mem _ hd))
      rw [List.flatMap_congr hself, List.flatMap_singleton']
    have hascii : c.toNat < 0x80 := by
      have hrange := isLower_iff.mp hc
      omega
    rw [raiseFirst, toUppercase_of_ascii hascii, List.singleton_append, List.flatMap_cons,
      uncapitalized_toUpper hc, hrest]
    rfl

/-- The pieces of a text with an underscore before each make it up. -/
theorem flatMap_pieces (c : Char) (cs : List Char) :
    (pieces (· = c) cs).flatMap (c :: ·) = c :: cs := by
  induction cs with
  | nil => rfl
  | cons d cs ih =>
    rw [pieces]
    split
    · rename_i hd
      rw [List.flatMap_cons, ih, of_decide_eq_true hd]
      rfl
    · cases hp : pieces (· = c) cs with
      | nil => exact absurd hp (pieces_ne_nil _ cs)
      | cons piece rest => simpa [hp] using ih

theorem pieces_congr {f g : Char → Bool} (h : ∀ c ∈ cs, f c = g c) :
    pieces f cs = pieces g cs := by
  induction cs with
  | nil => rfl
  | cons c cs ih =>
    obtain ⟨hc, hcs⟩ := List.forall_mem_cons.mp h
    rw [pieces, pieces, ih hcs, hc]

/-- In snake case nothing but underscores separates. -/
theorem separates_of_snake (h : isSnakeCase name) :
    ∀ c ∈ name.toList, separates c = decide (c = '_') := by
  intro c hc
  unfold separates
  by_cases hunderscore : c = '_'
  · simp [hunderscore]
  · have hpiece : ∃ piece ∈ pieces (· = '_') name.toList, c ∈ piece := by
      have hflat : c ∈ (pieces (· = '_') name.toList).flatMap ('_' :: ·) := by
        rw [flatMap_pieces]
        exact List.mem_cons_of_mem _ hc
      obtain ⟨piece, hp, hc⟩ := List.mem_flatMap.mp hflat
      exact ⟨piece, hp, (List.mem_cons.mp hc).resolve_left hunderscore⟩
    obtain ⟨piece, hp, hc⟩ := hpiece
    have hword := (Bool.and_eq_true_iff.mp (List.all_eq_true.mp h piece hp)).2
    have hsnake := List.all_eq_true.mp hword c hc
    have halnum : isAlphanumeric c := by
      rw [Bool.or_eq_true, isLower_iff, isDigit_iff] at hsnake
      rw [isAlphanumeric_of_ascii (by omega), Char.isAlphanum, Bool.or_eq_true, isAlpha_iff,
        isDigit_iff]
      omega
    simp [hunderscore, halnum]

/-- A name in snake case is read back from its spelling with capitals. -/
theorem flatMap_uncapitalized_camelCase (h : isSnakeCase name) :
    (camelCase name).toList.flatMap uncapitalized = '_' :: name.toList := by
  have hwords : ∀ word ∈ pieces (· = '_') name.toList,
      (raiseFirst word).flatMap uncapitalized = '_' :: word := fun word hw =>
    flatMap_uncapitalized_raiseFirst (List.all_eq_true.mp h word hw)
  rw [camelCase, String.toList_ofList, pieces_congr (separates_of_snake h), List.flatMap_assoc,
    List.flatMap_congr hwords, flatMap_pieces]

theorem camelCase_injective {a b : String} (ha : isSnakeCase a) (hb : isSnakeCase b)
    (h : camelCase a = camelCase b) : a = b := by
  have hread := flatMap_uncapitalized_camelCase ha
  rw [h, flatMap_uncapitalized_camelCase hb] at hread
  exact String.toList_inj.mp (List.cons.inj hread).2.symm

end ApiContract.Text
