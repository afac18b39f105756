import ApiContract.Text.Alphanumeric
import ApiContract.Text.LetterCase
import ApiContract.Text.Search

namespace ApiContract.Text

/-- The case of the letters read last. -/
inductive Mode where
  | boundary
  | lower
  | upper
deriving Repr, DecidableEq

/-- Characters without case leave the mode as it was. -/
def Mode.after (mode : Mode) (c : Char) : Mode :=
  if isLowercase c then .lower else if isUppercase c then .upper else mode

/-- The words of a piece of alphanumeric characters, `word` being the one begun. -/
def wordsFrom (mode : Mode) (word : List Char) : List Char → List (List Char)
  | [] => []
  | [c] => [word ++ [c]]
  | c :: d :: rest =>
    if mode.after c = .lower ∧ isUppercase d then
      (word ++ [c]) :: wordsFrom .boundary [] (d :: rest)
    else if mode = .upper ∧ isUppercase c ∧ isLowercase d then
      word :: wordsFrom .boundary [c] (d :: rest)
    else wordsFrom (mode.after c) (word ++ [c]) (d :: rest)

/-- A word ends at a character that is not alphanumeric, before a capital that follows a small
letter, and before the last capital of a run of capitals that a small letter follows. -/
def words (cs : List Char) : List (List Char) :=
  (pieces (fun c => !isAlphanumeric c) cs).flatMap (wordsFrom .boundary [])

/-- Splitting a piece into words loses no character. -/
theorem flatten_wordsFrom (mode : Mode) (word cs : List Char) (h : cs ≠ []) :
    (wordsFrom mode word cs).flatten = word ++ cs := by
  fun_induction wordsFrom mode word cs with
  | case1 => simp at h
  | case2 => simp
  | case3 _ _ _ _ _ _ ih => simp [ih]
  | case4 _ _ _ _ _ _ _ ih => simp [ih]
  | case5 _ _ _ _ _ _ _ ih => simp [ih]

/-- A capital sigma at the end of a word has a small form of its own. -/
def lowered : List Char → List Char
  | [] => []
  | [c] => if c = 'Σ' then ['ς'] else toLowercase c
  | c :: d :: rest => toLowercase c ++ lowered (d :: rest)

def capitalized : List Char → List Char
  | [] => []
  | c :: rest => toUppercase c ++ lowered rest

/-- `list-branches` is spelt `ListBranches`. -/
def pascalCase (s : String) : String :=
  String.ofList ((words s.toList).flatMap capitalized)

/-- `per_page` is spelt `perPage`. -/
def lowerCamelCase (s : String) : String :=
  match words s.toList with
  | [] => ""
  | w :: ws => String.ofList (lowered w ++ ws.flatMap capitalized)

end ApiContract.Text
