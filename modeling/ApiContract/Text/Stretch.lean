namespace ApiContract.Text

/-- The code points `first`, `first + step`, … up to `last`. -/
structure Stretch where
  first : Nat
  last : Nat
  step : Nat
deriving Repr, DecidableEq

namespace Stretch

def covers (s : Stretch) (n : Nat) : Bool :=
  s.first ≤ n && n ≤ s.last && (n - s.first) % s.step == 0

end Stretch

/-- A set of code points, as stretches in ascending order. -/
abbrev Table := List Stretch

def Table.contains (t : Table) (c : Char) : Bool :=
  t.any (·.covers c.toNat)

/-- Code points of a stretch move by one signed distance. -/
structure Shift where
  stretch : Stretch
  distance : Int
deriving Repr, DecidableEq

/-- Where the first shift that covers `c` sends it; `c` itself if none does. -/
def shift (shifts : List Shift) (c : Char) : Char :=
  match shifts.find? (·.stretch.covers c.toNat) with
  | some s => Char.ofNat (c.toNat + s.distance).toNat
  | none => c

end ApiContract.Text
