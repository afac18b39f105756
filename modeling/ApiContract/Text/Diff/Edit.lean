namespace ApiContract.Text.Diff

inductive EditKind where
  | equal
  | delete
  | insert
deriving Repr, DecidableEq

structure Edit where
  kind : EditKind
  oldStart : Nat
  newStart : Nat
  length : Nat
deriving Repr, DecidableEq

/-- How many lines agree from the starts of two stretches on. -/
def commonStart (old new : Array String) (i j : Nat) : Nat → Nat
  | 0 => 0
  | limit + 1 => if old[i]? = new[j]? then commonStart old new (i + 1) (j + 1) limit + 1 else 0

/-- How many lines agree up to the ends of two stretches. -/
def commonEnd (old new : Array String) (i j : Nat) : Nat → Nat
  | 0 => 0
  | limit + 1 =>
    if old[i - 1]? = new[j - 1]? then commonEnd old new (i - 1) (j - 1) limit + 1 else 0

end ApiContract.Text.Diff
