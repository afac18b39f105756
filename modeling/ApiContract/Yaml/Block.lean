import ApiContract.Yaml.Cursor

namespace ApiContract.Yaml

/-- What becomes of the line breaks after the last line. -/
inductive Chomping where
  | strip
  | clip
  | keep
deriving Repr, DecidableEq

def chomping? : Option Char → Option Chomping
  | some '+' => some .keep
  | some '-' => some .strip
  | _ => none

/-- A digit that gives the indentation. -/
def indentationDigit (c : Cursor) : Except Fault (Nat × Cursor) :=
  match c.rest with
  | '0' :: _ => .error ⟨.zeroIndentation, some .blockScalar⟩
  | x :: _ => .ok (if x.isDigit then (x.toNat - '0'.toNat, c.skip 1) else (0, c))
  | [] => .ok (0, c)

/-- The indicators behind the start, in either order, and then nothing more on the line. -/
def blockHeader (c : Cursor) : Except Fault (Chomping × Nat × Cursor) := do
  let (chomping, digit, c) ←
    match chomping? (c.at? 0) with
    | some chomping => do
      let (digit, c) ← indentationDigit (c.skip 1)
      pure (chomping, digit, c)
    | none => do
      let (digit, c) ← indentationDigit c
      match if digit = 0 then none else chomping? (c.at? 0) with
      | some chomping => pure (chomping, digit, c.skip 1)
      | none => pure (Chomping.clip, digit, c)
  let c := c.skipBlanks.skipComment
  if c.rest ≠ [] ∧ lineBreak? c.rest = none then
    throw ⟨.noLineEnd, some .blockScalar⟩
  return (chomping, digit, c.skipBreak)

/-- Goes past the indentation of a line, or past all blanks while `indent` is not yet known and so
zero. -/
def skipIndentation (indent : Nat) (c : Cursor) : Cursor :=
  let blanks := (c.rest.takeWhile isSpace).length
  c.skip (if indent = 0 then blanks else min blanks (indent - c.column))

/-- Goes past empty lines to the start of the next that is not: their breaks, the widest indentation
seen, and the place. -/
def emptyLines (indent widest : Nat) (breaks : List Char) (c : Cursor) :
    Except Fault (List Char × Nat × { d : Cursor // d.rest.length ≤ c.rest.length }) :=
  let d := skipIndentation indent c
  have hd : d.rest.length ≤ c.rest.length := Cursor.length_skip_le c _
  let widest := max widest d.column
  if (indent = 0 ∨ d.column < indent) ∧ (d.at? 0).any isTab then
    .error ⟨.tabForSpace, some .blockScalar⟩
  else match hb : lineBreak? d.rest with
    | none => .ok (breaks, widest, ⟨d, hd⟩)
    | some (b, n) =>
      have hn := Cursor.length_nextLine_lt hb
      match emptyLines indent widest (breaks ++ b) (d.nextLine n) with
      | .error fault => .error fault
      | .ok (breaks, widest, ⟨e, he⟩) => .ok (breaks, widest, ⟨e, by omega⟩)
termination_by c.rest.length
decreasing_by exact Nat.lt_of_lt_of_le hn hd

/-- The lines of a block so far: its text, the last character first, the break after the last line,
the breaks of the empty lines after that, and whether the last line began with a blank. -/
structure BlockLines where
  done : List Char := []
  last : List Char := []
  empty : List Char := []
  blank : Bool := false

namespace BlockLines

/-- What the next line is joined on with. A folded break between two lines that do not begin with a
blank is a blank, or nothing if empty lines follow. -/
def joint (ls : BlockLines) (folded blank : Bool) : List Char :=
  if folded ∧ ls.last = ['\n'] ∧ ¬ ls.blank ∧ ¬ blank then
    if ls.empty = [] then [' '] else ls.empty
  else ls.last ++ ls.empty

def add (ls : BlockLines) (folded : Bool) (line : List Char) : BlockLines :=
  let blank := (line.head?).any isBlank
  { done := line.reverse ++ ((ls.joint folded blank).reverse ++ ls.done), blank }

/-- The whole text. -/
def text (ls : BlockLines) : Chomping → List Char
  | .strip => ls.done.reverse
  | .clip => ls.done.reverse ++ ls.last
  | .keep => ls.done.reverse ++ ls.last ++ ls.empty

end BlockLines

/-- Takes every line that is indented by `indent`. -/
def blockLines (folded : Bool) (indent : Nat) (ls : BlockLines) (c : Cursor) :
    Except Fault (BlockLines × Cursor) :=
  if c.column = indent ∧ c.rest ≠ [] then
    let line := c.rest.takeWhile (!isBreak ·)
    let ls := ls.add folded line
    let d := c.skip line.length
    have : d.rest.length ≤ c.rest.length := Cursor.length_skip_le c _
    match hb : lineBreak? d.rest with
    | none => .ok (ls, d)
    | some (b, n) =>
      have := Cursor.length_nextLine_lt hb
      match emptyLines indent 0 [] (d.nextLine n) with
      | .error fault => .error fault
      | .ok (empty, _, ⟨e, _⟩) =>
        blockLines folded indent { ls with last := b, empty } e
  else .ok (ls, c)
termination_by c.rest.length

/-- The scalar whose start stands here, in a block that is indented by `outer`, or by nothing. -/
def blockScalar (folded : Bool) (outer : Option Nat) (c : Cursor) :
    Except Fault (String × Cursor) := do
  let (chomping, digit, c) ← blockHeader (c.skip 1)
  let given := if digit = 0 then 0 else outer.getD 0 + digit
  let (empty, widest, ⟨c, _⟩) ← emptyLines given 0 [] c
  let least := max 1 ((outer.map (· + 1)).getD 0)
  let indent := if given = 0 then max widest least else given
  let (ls, c) ← blockLines folded indent { empty } c
  return (String.ofList (ls.text chomping), c)

end ApiContract.Yaml
