import ApiContract.Yaml.Block
import ApiContract.Yaml.Quoted
import ApiContract.Yaml.Scalar
import ApiContract.Yaml.Tag
import ApiContract.Yaml.Unquoted

namespace ApiContract.Yaml

inductive Token where
  | directive (d : Directive)
  | documentStart
  | documentEnd
  | blockSequence
  | blockMapping
  | blockEnd
  | flowSequence
  | flowSequenceEnd
  | flowMapping
  | flowMappingEnd
  | dash
  | comma
  | key
  | value
  | aliasOf (name : String)
  | anchor (name : String)
  | tag (t : Tag)
  | scalar (text : String) (style : Style)
  | textEnd
deriving Repr, DecidableEq

/-- A token that a colon may still make a key: how many tokens came before it, where it stands, and
whether it has to become one. -/
structure SimpleKey where
  place : Nat
  required : Bool
  index : Nat
  line : Nat
  column : Nat

/-- The place in the text; the tokens so far, the last first, and how many they are; the indentation
of the open blocks, the innermost first; and the possible keys, one for the block and one for each
open bracket. -/
structure Scan where
  cursor : Cursor
  tokens : List Token := []
  count : Nat := 0
  blocks : List Nat := []
  key : Option SimpleKey := none
  outerKeys : List (Option SimpleKey) := []
  /-- Whether a key may begin here. -/
  keyAllowed : Bool := true

namespace Scan

/-- Some bracket is open. -/
def flow (s : Scan) : Bool := s.outerKeys ≠ []

def emit (s : Scan) (t : Token) : Scan :=
  { s with tokens := t :: s.tokens, count := s.count + 1 }

/-- Emits a token and goes past its characters. -/
def take (s : Scan) (n : Nat) (t : Token) : Scan := { s.emit t with cursor := s.cursor.skip n }

/-- Puts a token before all but the first `place` ones. -/
def insert (s : Scan) (place : Nat) (t : Token) : Scan :=
  let later := s.count - place
  { s with tokens := s.tokens.take later ++ t :: s.tokens.drop later, count := s.count + 1 }

/-- Opens a block if this column is indented more than the blocks that are open. -/
def openBlock (s : Scan) (column place : Nat) (t : Token) : Scan :=
  if s.flow ∨ s.blocks.head?.any (column ≤ ·) then s
  else { s.insert place t with blocks := column :: s.blocks }

/-- Closes blocks as long as `closes` holds of their column. -/
def closeBlocks (s : Scan) (closes : Nat → Bool) : Scan :=
  if s.flow then s
  else
    let closed := s.blocks.takeWhile closes
    { s with
      tokens := List.replicate closed.length .blockEnd ++ s.tokens
      count := s.count + closed.length
      blocks := s.blocks.drop closed.length }

def noColon : Fault := ⟨.noColon, some .simpleKey⟩

/-- The token that could have become a key no longer can. -/
def dropKey (s : Scan) : Except Fault Scan :=
  if s.key.any SimpleKey.required then .error noColon else .ok { s with key := none }

/-- The next token may become a key, and must if it begins a line of a block. -/
def saveKey (s : Scan) : Except Fault Scan :=
  if s.keyAllowed then do
    let s' ← s.dropKey
    let c := s.cursor
    let required := !s.flow && s.blocks.head? = some c.column
    return { s' with key := some ⟨s.count, required, c.index, c.line, c.column⟩ }
  else .ok s

/-- A key stands on one line and is not longer than 1024 characters. -/
def isStale (c : Cursor) (k : SimpleKey) : Bool := k.line < c.line || k.index + 1024 < c.index

def refreshKey (c : Cursor) (k : Option SimpleKey) : Except Fault (Option SimpleKey) :=
  match k with
  | none => .ok none
  | some k =>
    if isStale c k then if k.required then .error noColon else .ok none
    else .ok (some k)

def refreshKeys (s : Scan) : Except Fault Scan := do
  let outerKeys ← s.outerKeys.mapM (refreshKey s.cursor)
  return { s with key := ← refreshKey s.cursor s.key, outerKeys }

/-- The start of the next token, and whether a key may begin there. A tab is passed over only where
no key may begin. -/
def nextToken (flow keyAllowed : Bool) (c : Cursor) : Bool × Cursor :=
  let d := if c.index = 0 ∧ c.at? 0 = some '\ufeff' then c.skip 1 else c
  let e := (d.skipWhile fun x => isSpace x || (flow || !keyAllowed) && isTab x).skipComment
  have he : e.rest.length ≤ c.rest.length := by
    refine Nat.le_trans ?_ (Nat.le_trans (Cursor.length_skipWhile_le d
      (fun x => isSpace x || (flow || !keyAllowed) && isTab x)) ?_)
    · show (Cursor.skipComment _).rest.length ≤ _
      unfold Cursor.skipComment
      split
      · exact Cursor.length_skipWhile_le _ _
      · exact Nat.le_refl _
    · show (ite _ _ _ : Cursor).rest.length ≤ _
      split
      · exact Cursor.length_skip_le _ _
      · exact Nat.le_refl _
  match hb : lineBreak? e.rest with
  | some (_, n) =>
    have := Cursor.length_nextLine_lt hb
    nextToken flow (keyAllowed || !flow) (e.nextLine n)
  | none => (keyAllowed, e)
termination_by c.rest.length
decreasing_by exact Nat.lt_of_lt_of_le this he

def documentMark (s : Scan) (t : Token) : Except Fault Scan := do
  let s ← (s.closeBlocks fun _ => true).dropKey
  return { s with keyAllowed := false }.take 3 t

def directive (s : Scan) : Except Fault Scan := do
  let s ← (s.closeBlocks fun _ => true).dropKey
  let (d, cursor) ← Yaml.directive s.cursor
  return { s.emit (.directive d) with cursor, keyAllowed := false }

def openBracket (s : Scan) (t : Token) : Except Fault Scan := do
  let s ← s.saveKey
  return { s with key := none, outerKeys := s.key :: s.outerKeys, keyAllowed := true }.take 1 t

def closeBracket (s : Scan) (t : Token) : Except Fault Scan := do
  let s ← s.dropKey
  match s.outerKeys with
  | key :: outerKeys => return { s with key, outerKeys, keyAllowed := false }.take 1 t
  | [] => return { s with keyAllowed := false }.take 1 t

def comma (s : Scan) : Except Fault Scan := do
  return { ← s.dropKey with keyAllowed := true }.take 1 .comma

def dash (s : Scan) : Except Fault Scan := do
  if ¬ s.flow ∧ ¬ s.keyAllowed then throw { problem := .entryNotAllowed }
  let s ← (s.openBlock s.cursor.column s.count .blockSequence).dropKey
  return { s with keyAllowed := true }.take 1 .dash

def explicitKey (s : Scan) : Except Fault Scan := do
  if ¬ s.flow ∧ ¬ s.keyAllowed then throw { problem := .keyNotAllowed }
  let s ← (s.openBlock s.cursor.column s.count .blockMapping).dropKey
  return { s with keyAllowed := !s.flow }.take 1 .key

def value (s : Scan) : Except Fault Scan := do
  match s.key with
  | some k =>
    let s := (s.insert k.place .key).openBlock k.column k.place .blockMapping
    return { s with key := none, keyAllowed := false }.take 1 .value
  | none =>
    if ¬ s.flow ∧ ¬ s.keyAllowed then throw { problem := .valueNotAllowed }
    let s := s.openBlock s.cursor.column s.count .blockMapping
    return { s with keyAllowed := !s.flow }.take 1 .value

/-- A word behind its mark, with nothing right behind it that could belong to a name. -/
def name (during : Activity) (c : Cursor) : Except Fault (String × Cursor) := do
  let (name, d) := (c.skip 1).span isWord
  if name = [] ∨ ¬ (d.endsWordAt 0 ∨ (d.at? 0).any fun x => "?:,]\x7d%@\x60".toList.contains x) then
    throw ⟨.noName, some during⟩
  return (String.ofList name, d)

/-- A token that may become a key, and after which none may begin. -/
def keyed (s : Scan) (read : Scan → Except Fault (Token × Cursor)) : Except Fault Scan := do
  let s ← s.saveKey
  let (t, cursor) ← read s
  return { s.emit t with cursor, keyAllowed := false }

def quoted (s : Scan) (q : Quote) : Except Fault Scan :=
  s.keyed fun s => do
    let (text, c) ← quotedScalar q s.cursor
    return (.scalar text .quoted, c)

def block (s : Scan) (style : Style) : Except Fault Scan := do
  let s ← s.dropKey
  let (text, cursor) ← blockScalar (style = .folded) s.blocks.head? s.cursor
  return { s.emit (.scalar text style) with cursor, keyAllowed := true }

/-- Behind a line break a key may begin. -/
def unquoted (s : Scan) : Except Fault Scan := do
  let s ← s.saveKey
  let indent := (s.blocks.head?.map (· + 1)).getD 0
  let found ← unquotedFrom s.flow indent .none [] s.cursor
  return { s.emit (.scalar (String.ofList found.text) .plain) with
    cursor := found.next, keyAllowed := found.broken }

/-- A character that begins no scalar by itself. -/
def isIndicator (x : Char) : Bool :=
  isBlank x || "-?:,[]\x7b\x7d#&*!|>'\"%@\x60".toList.contains x

/-- A dash, and outside of brackets a question mark or colon, begins a scalar if a word goes on. -/
def beginsUnquoted (s : Scan) (x : Char) : Bool :=
  !isIndicator x || x = '-' && !(s.cursor.at? 1).any isBlank ||
    !s.flow && (x = '?' || x = ':') && !s.cursor.endsWordAt 1

/-- The end of the text closes every block. -/
def finish (s : Scan) : Except Fault Scan := do
  let s ← (s.closeBlocks fun _ => true).dropKey
  return s.emit .textEnd

/-- The token that begins with a character. -/
def token (s : Scan) (x : Char) : Except Fault Scan :=
  let c := s.cursor
  if c.column = 0 ∧ x = '%' then s.directive
  else if c.atDocumentMark then s.documentMark (if x = '-' then .documentStart else .documentEnd)
  else if x = '[' then s.openBracket .flowSequence
  else if x = '\x7b' then s.openBracket .flowMapping
  else if x = ']' then s.closeBracket .flowSequenceEnd
  else if x = '\x7d' then s.closeBracket .flowMappingEnd
  else if x = ',' then s.comma
  else if x = '-' ∧ c.endsWordAt 1 then s.dash
  else if x = '?' ∧ (s.flow ∨ c.endsWordAt 1) then s.explicitKey
  else if x = ':' ∧ (s.flow ∨ c.endsWordAt 1) then s.value
  else if x = '*' then s.keyed fun s => do
    let (name, c) ← name .aliasName s.cursor
    return (.aliasOf name, c)
  else if x = '&' then s.keyed fun s => do
    let (name, c) ← name .anchor s.cursor
    return (.anchor name, c)
  else if x = '!' then s.keyed fun s => do
    let (t, c) ← Yaml.tag s.flow s.cursor
    return (.tag t, c)
  else if x = '|' ∧ ¬ s.flow then s.block .literal
  else if x = '>' ∧ ¬ s.flow then s.block .folded
  else if x = '\'' then s.quoted .single
  else if x = '"' then s.quoted .double
  else if s.beginsUnquoted x then s.unquoted
  else .error ⟨.noTokenStart, some .nextToken⟩

/-- Goes to the next token and takes it. -/
def step (s : Scan) : Except Fault Scan := do
  let (keyAllowed, cursor) := nextToken s.flow s.keyAllowed s.cursor
  let s ← { s with keyAllowed, cursor }.refreshKeys
  let s := s.closeBlocks (cursor.column < ·)
  match cursor.rest with
  | [] => s.finish
  | x :: _ => s.token x

/-- Takes at most `n` tokens, up to the end of the text or a fault. -/
def run : Nat → Scan → List Token × Option Fault
  | 0, s => (s.tokens.reverse, none)
  | n + 1, s =>
    match s.step with
    | .error fault => (s.tokens.reverse, some fault)
    | .ok s =>
      if s.tokens.head? = some .textEnd then (s.tokens.reverse, none) else run n s

end Scan

/-- No text may hold another control than tab and line breaks. -/
def isPrintable (x : Char) : Bool :=
  let n := x.toNat
  n = 0x09 || n = 0x0a || n = 0x0d || 0x20 ≤ n && n ≤ 0x7e || n = 0x85 || 0xa0 ≤ n && n ≤ 0xfffd ||
    0x10000 ≤ n

/-- Where a character stands that no text may hold, in bytes. -/
def unprintable? : Nat → List Char → Option Nat
  | _, [] => none
  | place, x :: rest =>
    if isPrintable x then unprintable? (place + x.utf8Size) rest else some place

/-- A mark of the byte order before the text is no part of it. -/
def withoutByteOrder : List Char → List Char
  | '\ufeff' :: rest => rest
  | cs => cs

/-- The tokens of a text, and the fault that ends them, if one does. Each token takes at least one
character, so there are no more tokens than characters but for the end. -/
def tokens (text : List Char) : List Token × Option Fault :=
  match unprintable? 0 text with
  | some place => ([], some { problem := .control place })
  | none => Scan.run (text.length + 1) { cursor := { rest := withoutByteOrder text } }

end ApiContract.Yaml
