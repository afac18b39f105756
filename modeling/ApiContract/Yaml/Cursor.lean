import ApiContract.Yaml.Fault

namespace ApiContract.Yaml

def isSpace (c : Char) : Bool := c = ' '

def isTab (c : Char) : Bool := c = '\t'

def isBlank (c : Char) : Bool := isSpace c || isTab c

def isBreak (c : Char) : Bool :=
  c = '\n' || c = '\r' || c.toNat = 0x85 || c.toNat = 0x2028 || c.toNat = 0x2029

/-- A letter or digit of ASCII, an underscore or a hyphen. -/
def isWord (c : Char) : Bool := c.isAlphanum || c = '_' || c = '-'

/-- The text ends here, or a blank or a line break stands here. -/
def endsWord : List Char → Bool
  | [] => true
  | c :: _ => isBlank c || isBreak c

/-- What a line break at the start of a text is read as, and how many characters it takes. The two
separators of Unicode stay as they are; any other break is a newline. -/
def lineBreak? : List Char → Option (List Char × Nat)
  | '\r' :: '\n' :: _ => some (['\n'], 2)
  | c :: _ =>
    if c.toNat = 0x2028 ∨ c.toNat = 0x2029 then some ([c], 1)
    else if isBreak c then some (['\n'], 1)
    else none
  | [] => none

theorem lineBreak?_length {cs b : List Char} {n : Nat} (h : lineBreak? cs = some (b, n)) :
    0 < n ∧ n ≤ cs.length := by
  unfold lineBreak? at h
  split at h
  · cases h; simp
  · split at h
    · cases h; simp
    · split at h
      · cases h; simp
      · cases h
  · cases h

/-- Three equal dashes or points, with nothing right behind them. -/
def isDocumentMark : List Char → Bool
  | '-' :: '-' :: '-' :: rest => endsWord rest
  | '.' :: '.' :: '.' :: rest => endsWord rest
  | _ => false

/-- What is left of a text, and where that is: the characters before it, the lines before it, and
the characters before it on its line. -/
structure Cursor where
  rest : List Char
  index : Nat := 0
  line : Nat := 0
  column : Nat := 0

namespace Cursor

/-- Goes past characters of one line. -/
def skip (c : Cursor) (n : Nat) : Cursor :=
  { c with rest := c.rest.drop n, index := c.index + n, column := c.column + n }

/-- Goes past a line break of `n` characters. -/
def nextLine (c : Cursor) (n : Nat) : Cursor :=
  { rest := c.rest.drop n, index := c.index + n, line := c.line + 1, column := 0 }

/-- The characters up to the first that `p` does not hold of, and the place of that one. -/
def span (c : Cursor) (p : Char → Bool) : List Char × Cursor :=
  let found := c.rest.takeWhile p
  (found, c.skip found.length)

def skipWhile (c : Cursor) (p : Char → Bool) : Cursor := (c.span p).2

def skipBlanks (c : Cursor) : Cursor := c.skipWhile isBlank

/-- Goes to the end of the line if a comment stands here. -/
def skipComment (c : Cursor) : Cursor :=
  if c.rest.head? = some '#' then c.skipWhile (!isBreak ·) else c

def skipBreak (c : Cursor) : Cursor :=
  match lineBreak? c.rest with
  | some (_, n) => c.nextLine n
  | none => c

/-- The character at a distance. -/
def at? (c : Cursor) (n : Nat) : Option Char := c.rest[n]?

/-- Whether a word ends at a distance. -/
def endsWordAt (c : Cursor) (n : Nat) : Bool := endsWord (c.rest.drop n)

/-- A mark between documents stands only at the start of a line. -/
def atDocumentMark (c : Cursor) : Bool := c.column = 0 && isDocumentMark c.rest

theorem length_nextLine_lt {c : Cursor} {b : List Char} {n : Nat}
    (h : lineBreak? c.rest = some (b, n)) : (c.nextLine n).rest.length < c.rest.length := by
  have := lineBreak?_length h
  simp [nextLine]
  omega

theorem length_skip_lt {c : Cursor} {n : Nat} (hr : c.rest ≠ []) (hn : 0 < n) :
    (c.skip n).rest.length < c.rest.length := by
  have := List.length_pos_iff.mpr hr
  simp [skip]
  omega

theorem length_skip_le (c : Cursor) (n : Nat) : (c.skip n).rest.length ≤ c.rest.length := by
  simp [skip]

theorem length_skipWhile_le (c : Cursor) (p : Char → Bool) :
    (c.skipWhile p).rest.length ≤ c.rest.length :=
  length_skip_le c _

end Cursor

end ApiContract.Yaml
