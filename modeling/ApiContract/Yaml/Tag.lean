import ApiContract.Text.Escape
import ApiContract.Yaml.Cursor

namespace ApiContract.Yaml

/-- A tag as it is written: a handle that is short for the start of an address, and the rest. -/
structure Tag where
  handle : String
  rest : String
deriving Repr, DecidableEq

inductive Directive where
  | version (major minor : Nat)
  /-- What a handle is short for. -/
  | handle (handle start : String)
deriving Repr, DecidableEq

/-- The byte that a percent sign and two digits spell. -/
def octet (during : Activity) : List Char → Except Fault Nat
  | '%' :: a :: b :: _ =>
    match Text.hexNumber? [a, b] with
    | some n => .ok n
    | none => .error ⟨.noOctet, some during⟩
  | _ => .error ⟨.noOctet, some during⟩

/-- The six bits of each of the bytes that follow the first. -/
def trailingOctets (during : Activity) : Nat → Nat → List Char → Except Fault Nat
  | 0, value, _ => .ok value
  | left + 1, value, cs => do
    let n ← octet during cs
    if n / 64 ≠ 2 then throw ⟨.trailingOctet, some during⟩
    trailingOctets during left (64 * value + n % 64) (cs.drop 3)

/-- The character whose bytes are spelled, and how many bytes it has. -/
def encodedChar (during : Activity) (cs : List Char) : Except Fault (Char × Nat) := do
  let n ← octet during cs
  let (value, more) ←
    if n / 128 = 0 then pure (n, 0)
    else if n / 32 = 6 then pure (n % 32, 1)
    else if n / 16 = 14 then pure (n % 16, 2)
    else if n / 8 = 30 then pure (n % 8, 3)
    else throw ⟨.leadingOctet, some during⟩
  return (Char.ofNat (← trailingOctets during more value (cs.drop 3)), more + 1)

/-- What may stand in an address; between angle brackets, a comma and square brackets too. -/
def isAddressChar (bracketed : Bool) (x : Char) : Bool :=
  isWord x || ";/?:@&=+$.!~*'()".toList.contains x || bracketed && ",[]".toList.contains x

/-- The address that stands here, the last character first, behind `done`. -/
def addressFrom (bracketed : Bool) (during : Activity) (done : List Char) (c : Cursor) :
    Except Fault (List Char × Cursor) :=
  match hc : c.rest with
  | [] => .ok (done, c)
  | x :: _ =>
    have hr : c.rest ≠ [] := by simp [hc]
    if x = '%' then
      match encodedChar during c.rest with
      | .error fault => .error fault
      | .ok (y, n) =>
        if hn : 0 < n then
          have := Cursor.length_skip_lt hr (Nat.mul_pos (by decide : 0 < 3) hn)
          addressFrom bracketed during (y :: done) (c.skip (3 * n))
        else .ok (done, c)
    else if isAddressChar bracketed x then
      have := Cursor.length_skip_lt hr Nat.one_pos
      addressFrom bracketed during (x :: done) (c.skip 1)
    else .ok (done, c)
termination_by c.rest.length

/-- An address that begins with `start`, which counts even when nothing follows it. -/
def address (bracketed : Bool) (during : Activity) (start : List Char) (c : Cursor) :
    Except Fault (List Char × Cursor) := do
  let (done, d) ← addressFrom bracketed during [] c
  if start = [] ∧ d.index = c.index then throw ⟨.noAddress, some during⟩
  return (start.drop 1 ++ done.reverse, d)

/-- An exclamation mark and a word, with one more mark behind it if there is one. -/
def handle (c : Cursor) (missing : Activity) : Except Fault (List Char × Cursor) := do
  if c.at? 0 ≠ some '!' then throw ⟨.noExclamationMark, some missing⟩
  let (name, d) := (c.skip 1).span isWord
  if d.at? 0 = some '!' then return ('!' :: name ++ ['!'], d.skip 1)
  return ('!' :: name, d)

/-- A word between two marks stands for the start of an address. -/
def isHandle (cs : List Char) : Bool := 1 < cs.length && cs.getLast? = some '!'

/-- The tag whose exclamation mark stands here. -/
def tag (flow : Bool) (c : Cursor) : Except Fault (Tag × Cursor) := do
  let (found, d) ←
    if c.at? 1 = some '<' then do
      let (text, d) ← address true .tagAddress [] (c.skip 2)
      if d.at? 0 ≠ some '>' then throw ⟨.noAddressEnd, some .tag⟩
      pure (Tag.mk "" (String.ofList text), d.skip 1)
    else do
      let (start, d) ← handle c .tag
      if isHandle start then do
        let (text, d) ← address false .tagAddress [] d
        pure (Tag.mk (String.ofList start) (String.ofList text), d)
      else do
        let (text, d) ← address false .tagAddress start d
        pure (if text = [] then Tag.mk "" "!" else Tag.mk "!" (String.ofList text), d)
  if ¬ d.endsWordAt 0 ∧ ¬ (flow ∧ d.at? 0 = some ',') then
    throw ⟨.noBlankOrBreak, some .tag⟩
  return (found, d)

def versionNumber (c : Cursor) : Except Fault (Nat × Cursor) := do
  let (digits, d) := c.span Char.isDigit
  if 9 < digits.length then throw ⟨.longVersion, some .versionDirective⟩
  if digits = [] then throw ⟨.noVersionNumber, some .versionDirective⟩
  return (digits.foldl (fun n x => 10 * n + (x.toNat - '0'.toNat)) 0, d)

def versionDirective (c : Cursor) : Except Fault (Directive × Cursor) := do
  let (major, c) ← versionNumber c.skipBlanks
  if c.at? 0 ≠ some '.' then throw ⟨.noVersionPoint, some .versionDirective⟩
  let (minor, c) ← versionNumber (c.skip 1)
  return (.version major minor, c)

def handleDirective (c : Cursor) : Except Fault (Directive × Cursor) := do
  let (name, c) ← handle c.skipBlanks .tagDirectiveStart
  if name ≠ ['!'] ∧ ¬ isHandle name then throw ⟨.noExclamationMark, some .tagDirectiveHandle⟩
  if ¬ (c.at? 0).any isBlank then throw ⟨.noBlank, some .tagDirective⟩
  let (start, c) ← address true .tagDirectiveAddress [] c.skipBlanks
  if ¬ c.endsWordAt 0 then throw ⟨.noBlankOrBreak, some .tagDirective⟩
  return (.handle (String.ofList name) (String.ofList start), c)

/-- The directive whose percent sign stands here; nothing more may stand on its line. -/
def directive (c : Cursor) : Except Fault (Directive × Cursor) := do
  let (name, c) := (c.skip 1).span isWord
  if name = [] then throw ⟨.noDirectiveName, some .directive⟩
  if ¬ c.endsWordAt 0 then throw ⟨.directiveNameEnd, some .directive⟩
  let (found, c) ←
    if name = "YAML".toList then versionDirective c
    else if name = "TAG".toList then handleDirective c
    else throw ⟨.unknownDirective, some .directive⟩
  let c := c.skipBlanks.skipComment
  if c.rest ≠ [] ∧ lineBreak? c.rest = none then throw ⟨.noLineEnd, some .directive⟩
  return (found, c.skipBreak)

end ApiContract.Yaml
