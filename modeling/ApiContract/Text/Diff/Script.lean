import ApiContract.Text.Diff.Edit

namespace ApiContract.Text.Diff

/-- A stretch of the old lines and one of the new lines. -/
structure Window where
  oldStart : Nat
  oldEnd : Nat
  newStart : Nat
  newEnd : Nat
deriving Repr, DecidableEq

namespace Window

def oldLength (w : Window) : Nat := w.oldEnd - w.oldStart

def newLength (w : Window) : Nat := w.newEnd - w.newStart

def size (w : Window) : Nat := w.oldLength + w.newLength

end Window

/-- How far the ways on each diagonal have come; diagonals count from `-center`. -/
structure Reach where
  center : Nat
  ends : Array Nat

namespace Reach

def start (center : Nat) : Reach := ⟨center, Array.replicate (2 * center + 2) 0⟩

def get (r : Reach) (k : Int) : Nat := r.ends.getD (k + r.center).toNat 0

def set (r : Reach) (k : Int) (x : Nat) : Reach :=
  { r with ends := r.ends.setIfInBounds (k + r.center).toNat x }

/-- Where the way on diagonal `k` begins its `d`-th step. -/
def enter (r : Reach) (d : Nat) (k : Int) : Nat :=
  if k = -(d : Int) ∨ (k ≠ d ∧ r.get (k - 1) < r.get (k + 1)) then r.get (k + 1)
  else r.get (k - 1) + 1

end Reach

/-- The diagonals of step `d`, from the highest down. -/
def diagonals (d : Nat) : List Int :=
  (List.range (d + 1)).map fun i => (d : Int) - 2 * (i : Nat)

/-- Moves the ways from the start one step on; a point where they meet those from the end. -/
def forward (old new : Array String) (w : Window) (d : Nat) (back : Reach) :
    List Int → Reach → Reach × Option (Nat × Nat)
  | [], reach => (reach, none)
  | k :: ks, reach =>
    let n := w.oldLength
    let m := w.newLength
    let delta : Int := n - m
    let x := reach.enter d k
    let y := ((x : Int) - k).toNat
    let far := x + commonStart old new (w.oldStart + x) (w.newStart + y) (min (n - x) (m - y))
    let reach := reach.set k far
    if delta % 2 ≠ 0 ∧ (k - delta).natAbs + 1 ≤ d ∧ n ≤ far + back.get (delta - k) then
      (reach, some (w.oldStart + x, w.newStart + y))
    else forward old new w d back ks reach

/-- Moves the ways from the end one step on; a point where they meet those from the start. -/
def backward (old new : Array String) (w : Window) (d : Nat) (front : Reach) :
    List Int → Reach → Reach × Option (Nat × Nat)
  | [], reach => (reach, none)
  | k :: ks, reach =>
    let n := w.oldLength
    let m := w.newLength
    let delta : Int := n - m
    let x := reach.enter d k
    let y := ((x : Int) - k).toNat
    let advance := commonEnd old new (w.oldEnd - x) (w.newEnd - y) (min (n - x) (m - y))
    let far := x + advance
    let reach := reach.set k far
    if delta % 2 = 0 ∧ (k - delta).natAbs ≤ d ∧ n ≤ far + front.get (delta - k) then
      (reach, some (w.oldStart + (n - far), w.newStart + (m - (y + advance))))
    else backward old new w d front ks reach

/-- Where the ways from both corners meet, step after step. -/
def meeting (old new : Array String) (w : Window) (front back : Reach) (d : Nat) :
    Nat → Option (Nat × Nat)
  | 0 => none
  | tries + 1 =>
    match forward old new w d back (diagonals d) front with
    | (_, some point) => some point
    | (front, none) =>
      match backward old new w d front (diagonals d) back with
      | (_, some point) => some point
      | (back, none) => meeting old new w front back (d + 1) tries

def middle (old new : Array String) (w : Window) : Option (Nat × Nat) :=
  let steps := (w.size + 1) / 2 + 1
  meeting old new w (.start steps) (.start steps) 0 steps

/-- A run of equal lines, if there is any. -/
def equalRun (i j length : Nat) : List Edit :=
  if length = 0 then [] else [⟨.equal, i, j, length⟩]

/-- Replaces a whole window. -/
def replaceRun (w : Window) : List Edit :=
  (if w.oldLength = 0 then [] else [⟨.delete, w.oldStart, w.newStart, w.oldLength⟩]) ++
  (if w.newLength = 0 then [] else [⟨.insert, w.oldStart, w.newStart, w.newLength⟩])

/-- The edits of a window. What its sides share at their starts and ends stays, and the rest is
split where the shortest ways from both corners meet. -/
def script (old new : Array String) (w : Window) : List Edit :=
  let start := commonStart old new w.oldStart w.newStart (min w.oldLength w.newLength)
  let v : Window := { w with oldStart := w.oldStart + start, newStart := w.newStart + start }
  let close := commonEnd old new v.oldEnd v.newEnd (min v.oldLength v.newLength)
  let v : Window := { v with oldEnd := v.oldEnd - close, newEnd := v.newEnd - close }
  let inner :=
    if v.oldLength = 0 ∨ v.newLength = 0 then replaceRun v
    else match middle old new v with
      | none => replaceRun v
      | some (i, j) =>
        let a : Window := { v with oldEnd := i, newEnd := j }
        let b : Window := { v with oldStart := i, newStart := j }
        if _h : a.size < w.size ∧ b.size < w.size then script old new a ++ script old new b
        else replaceRun v
  equalRun w.oldStart w.newStart start ++ inner ++ equalRun v.oldEnd v.newEnd close
termination_by w.size
decreasing_by
  · exact _h.1
  · exact _h.2

end ApiContract.Text.Diff
