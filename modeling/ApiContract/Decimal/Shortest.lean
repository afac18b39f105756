import ApiContract.Decimal.Double

namespace ApiContract

/-- The number `digits * 10 ^ exponent`. -/
structure Decimal where
  digits : Nat
  exponent : Int
deriving Repr, DecidableEq, Inhabited

namespace Decimal

def digitCount (n : Nat) : Nat := (Nat.toDigits 10 n).length

/-- The largest power of ten that is not above `num / den`. -/
def leadingPower (num den : Nat) : Int :=
  let p : Int := digitCount num - digitCount den
  if 0 ≤ p then if den * Nat.pow 10 p.toNat ≤ num then p else p - 1
  else if den ≤ num * Nat.pow 10 (-p).toNat then p else p - 1

/-- The decimals that read back as one double: its own value and the ends of the interval around it,
over one denominator. The ends belong to the interval when the mantissa is even. -/
structure Interval where
  low : Nat
  value : Nat
  high : Nat
  den : Nat
  closed : Bool
deriving Repr, DecidableEq

/-- Below a power of two the neighbours stand half as far apart as above. -/
def intervalOf (x : Double) : Interval :=
  let m := x.mantissa
  let below := if m = Nat.pow 2 52 ∧ x.exponent ≠ Double.smallestExponent then 1 else 2
  let e := x.exponent - 2
  let unit := if 0 ≤ e then Nat.pow 2 e.toNat else 1
  { low := (4 * m - below) * unit
    value := 4 * m * unit
    high := (4 * m + 2) * unit
    den := if 0 ≤ e then 1 else Nat.pow 2 (-e).toNat
    closed := m % 2 = 0 }

namespace Interval

/-- Whether `n / d` lies in the interval. -/
def holds (i : Interval) (n d : Nat) : Bool :=
  if i.closed then i.low * d ≤ n * i.den && n * i.den ≤ i.high * d
  else i.low * d < n * i.den && n * i.den < i.high * d

/-- The point of the grid `10 ^ k` in the interval that is nearest to the value. -/
def onGrid? (i : Interval) (k : Int) : Option Decimal :=
  let up := if 0 ≤ k then Nat.pow 10 k.toNat else 1
  let down := if 0 ≤ k then 1 else Nat.pow 10 (-k).toNat
  let a := i.value * down / (i.den * up)
  let hits (n : Nat) : Bool := i.holds (n * up) down
  match hits a, hits (a + 1) with
  | false, false => none
  | true, false => some ⟨a, k⟩
  | false, true => some ⟨a + 1, k⟩
  | true, true =>
    some ⟨Double.nearest (i.value * down) (i.den * up), k⟩

/-- The first hit on the grids for `count`, `count + 1`, … digits. -/
def firstHit (i : Interval) (leading : Int) (count : Nat) : Nat → Decimal
  | 0 => ⟨i.value / i.den, 0⟩
  | tries + 1 =>
    match i.onGrid? (leading - count + 1) with
    | some d => d
    | none => firstHit i leading (count + 1) tries

end Interval

/-- A last digit zero goes into the exponent. -/
def trimZeros (digits : Nat) (exponent : Int) : Decimal :=
  if h : 0 < digits ∧ digits % 10 = 0 then trimZeros (digits / 10) (exponent + 1)
  else ⟨digits, exponent⟩
termination_by digits
decreasing_by omega

/-- Of all decimals with the fewest digits that read back as the double the one nearest to it, and
of two equally near the one whose last digit is even. Seventeen digits always suffice. -/
def shortest (x : Double) : Decimal :=
  if x.isZero then ⟨0, 0⟩ else
    let i := intervalOf x
    let d := i.firstHit (leadingPower i.value i.den) 1 17
    trimZeros d.digits d.exponent

end Decimal

end ApiContract
