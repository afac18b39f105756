import ApiContract.Text.Diff.Compaction
import ApiContract.Text.Diff.Script
import ApiContract.Text.Lines

namespace ApiContract.Text.Diff

/-- A run of equal lines, or everything that goes and comes between two such runs. -/
structure Block where
  equal : Bool
  oldStart : Nat
  oldLength : Nat
  newStart : Nat
  newLength : Nat
deriving Repr, DecidableEq

namespace Block

def ofEdit (e : Edit) : Block :=
  match e.kind with
  | .equal => ⟨true, e.oldStart, e.length, e.newStart, e.length⟩
  | .delete => ⟨false, e.oldStart, e.length, e.newStart, 0⟩
  | .insert => ⟨false, e.oldStart, 0, e.newStart, e.length⟩

/-- Adds an edit to a block of its kind. The first deletion of a block says where it stands among
the old lines, and the first insertion where it stands among the new ones. -/
def add (b : Block) (e : Edit) : Block :=
  match e.kind with
  | .equal => { b with oldLength := b.oldLength + e.length, newLength := b.newLength + e.length }
  | .delete =>
    if b.oldLength = 0 then { b with oldStart := e.oldStart, oldLength := e.length }
    else { b with oldLength := b.oldLength + e.length }
  | .insert =>
    if b.newLength = 0 then { b with newStart := e.newStart, newLength := e.length }
    else { b with newLength := b.newLength + e.length }

end Block

/-- The blocks of a script. -/
def blocks : List Edit → List Block
  | [] => []
  | e :: rest => go (.ofEdit e) rest
where
  go (b : Block) : List Edit → List Block
    | [] => [b]
    | e :: rest =>
      if b.equal = (e.kind = .equal : Bool) then go (b.add e) rest else b :: go (.ofEdit e) rest

def contextLines : Nat := 3

/-- The last lines of an equal block. -/
def Block.close (b : Block) : Block :=
  let cut := b.oldLength - contextLines
  { b with
    oldStart := b.oldStart + cut, newStart := b.newStart + cut
    oldLength := b.oldLength - cut, newLength := b.newLength - cut }

/-- The first lines of an equal block. -/
def Block.open (b : Block) : Block :=
  let cut := b.oldLength - contextLines
  { b with oldLength := b.oldLength - cut, newLength := b.newLength - cut }

/-- Only the last lines of an equal block at the start, and the first lines of one at the end. -/
def trimStart : List Block → List Block
  | b :: rest => (if b.equal then b.close else b) :: rest
  | [] => []

def trimEnd : List Block → List Block
  | [] => []
  | [b] => [if b.equal then b.open else b]
  | b :: rest => b :: trimEnd rest

/-- Blocks cut into hunks: a long equal block ends one hunk and starts the next. -/
def hunks (hunk : List Block) : List Block → List (List Block)
  | [] => [hunk.reverse]
  | b :: rest =>
    if b.equal ∧ 2 * contextLines < b.oldLength then
      (b.open :: hunk).reverse :: hunks [b.close] rest
    else hunks (b :: hunk) rest

/-- A hunk without a change says nothing. -/
def hasChange (hunk : List Block) : Bool :=
  match hunk with
  | [] => false
  | [b] => !b.equal
  | _ => true

def dropLastUnchanged (hs : List (List Block)) : List (List Block) :=
  match hs.getLast? with
  | some h => if hasChange h then hs else hs.dropLast
  | none => hs

/-- The place of a hunk: its first line and its number of lines, which is left out if it is one. An
empty stretch is said to stand at the line before it. -/
def rangeText (start stop : Nat) : String :=
  let length := stop - start
  if length = 1 then toString (start + 1)
  else if length = 0 then toString start ++ ",0"
  else toString (start + 1) ++ "," ++ toString length

def linesText (mark : String) (lines : Array String) (start length : Nat) : String :=
  String.join ((lines.toList.drop start).take length |>.map (mark ++ ·))

def Block.text (old new : Array String) (b : Block) : String :=
  if b.equal then linesText " " old b.oldStart b.oldLength
  else linesText "-" old b.oldStart b.oldLength ++ linesText "+" new b.newStart b.newLength

def hunkText (old new : Array String) (hunk : List Block) : String :=
  match hunk.head?, hunk.getLast? with
  | some first, some last =>
    "@@ -" ++ rangeText first.oldStart (last.oldStart + last.oldLength) ++ " +" ++
      rangeText first.newStart (last.newStart + last.newLength) ++ " @@\n" ++
      String.join (hunk.map (Block.text old new))
  | _, _ => ""

/-- The lines of a text with what ends them: a newline, a return, or both. -/
def splitLines : List Char → List (List Char)
  | [] => []
  | '\r' :: '\n' :: rest => ['\r', '\n'] :: splitLines rest
  | '\r' :: rest => ['\r'] :: splitLines rest
  | '\n' :: rest => ['\n'] :: splitLines rest
  | c :: rest =>
    match rest, splitLines rest with
    | [], _ => [[c]]
    | _ :: _, line :: more => (c :: line) :: more
    | _ :: _, [] => [[c]]

/-- A text that ends in a newline, so that its last line does not differ by that alone. -/
def closedText (s : String) : List Char :=
  if s.toList.getLast? = some '\n' then s.toList else s.toList ++ ['\n']

def linesOf (s : String) : Array String :=
  ((splitLines (closedText s)).map String.ofList).toArray

/-- The difference between two texts; nothing if there is none. -/
def unified (old new oldLabel newLabel : String) : String :=
  let before := linesOf old
  let after := linesOf new
  let edits := compact before after (script before after ⟨0, before.size, 0, after.size⟩)
  match dropLastUnchanged (hunks [] (trimEnd (trimStart (blocks edits)))) with
  | [] => ""
  | hs =>
    "--- " ++ oldLabel ++ "\n+++ " ++ newLabel ++ "\n" ++
      String.join (hs.map (hunkText before after))

end ApiContract.Text.Diff
