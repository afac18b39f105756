import ApiContract.Text.Search
import ApiContract.Text.Stretch

namespace ApiContract.Text

/-- White space of Unicode 17. -/
def blankTable : Table := [
  ⟨0x9, 0xd, 1⟩, ⟨0x20, 0x20, 1⟩, ⟨0x85, 0x85, 1⟩, ⟨0xa0, 0xa0, 1⟩,
  ⟨0x1680, 0x1680, 1⟩, ⟨0x2000, 0x200a, 1⟩, ⟨0x2028, 0x2029, 1⟩, ⟨0x202f, 0x202f, 1⟩,
  ⟨0x205f, 0x205f, 1⟩, ⟨0x3000, 0x3000, 1⟩]

def isBlank (c : Char) : Bool :=
  blankTable.contains c

/-- The characters before the blanks at the end. -/
def trimEnd (cs : List Char) : List Char :=
  (cs.reverse.dropWhile isBlank).reverse

/-- A text without its closing blanks starts the text. -/
theorem trimEnd_isPrefix (cs : List Char) : List.IsPrefix (trimEnd cs) cs := by
  have h : List.IsSuffix (cs.reverse.dropWhile isBlank) cs.reverse := List.dropWhile_suffix _
  simpa [trimEnd] using List.reverse_prefix.mpr h

/-- A newline ends a line, so a text that closes with one has no empty line after it. -/
def lines (cs : List Char) : List (List Char) :=
  let all := pieces (· = '\n') cs
  if all.getLast? = some [] then all.dropLast else all

/-- Texts with `separator` between each two neighbours. -/
def joinWith (separator : List Char) : List (List Char) → List Char
  | [] => []
  | [piece] => piece
  | piece :: next :: rest => piece ++ separator ++ joinWith separator (next :: rest)

/-- No line holds a newline. -/
theorem newline_not_mem_of_mem_lines {cs line : List Char} (h : line ∈ lines cs) : '\n' ∉ line := by
  have hm : line ∈ pieces (· = '\n') cs := by
    unfold lines at h
    dsimp only at h
    split at h
    · exact List.dropLast_subset _ h
    · exact h
  intro hc
  simpa using not_separates_of_mem_pieces hm '\n' hc

end ApiContract.Text
