import PlotMiner.Decimal.Binary64

/-!
# The shortest decimal of a double

Among the decimals that round to a given finite double, those with the fewest digits are the
candidates, and the nearest of them is its shortest decimal. The search goes through the numbers of
digits in increasing order; on the grid of decimals with that many digits only the two neighbours of
the double have to be tried, since if any point of a grid rounds to it, one of them does.
-/

namespace PlotMiner

/-- The value `digits * 10 ^ exponent`. -/
structure Decimal where
  digits : Nat
  exponent : Int
deriving DecidableEq

namespace Decimal

structure Ratio where
  num : Nat
  den : Nat

def scaled (m : Nat) (e t : Int) : Ratio where
  num := (m <<< e.toNat) * Nat.pow 10 t.toNat
  den := (1 <<< (-e).toNat) * Nat.pow 10 (-t).toNat

/-- Whether `d`, on the grid that `10 ^ t` steps along, rounds to the double `x`. The decimals that
do are those between the midpoints to the neighbouring doubles, the midpoints themselves included
when the mantissa is even. -/
def roundsTo (x : Binary64) (t : Int) (d : Nat) : Bool :=
  let m := x.mantissa
  let e := x.exponent
  -- in units of a quarter of the last place
  let low := if x.rawFraction = 0 ∧ 1 < x.rawExponent then 4 * m - 1 else 4 * m - 2
  let high := 4 * m + 2
  let l := scaled low (e - 2) (-t)
  let h := scaled high (e - 2) (-t)
  if m % 2 = 0 then l.num ≤ d * l.den && d * h.den ≤ h.num
  else l.num < d * l.den && d * h.den < h.num

/-- The nearer of the two neighbours of `x` on the grid that `10 ^ t` steps along, if it rounds to
`x`; otherwise the other one, if that does. A tie goes to the even one. -/
def onGrid? (x : Binary64) (t : Int) : Option Nat :=
  let v := scaled x.mantissa x.exponent (-t)
  let below := v.num / v.den
  let rest := v.num % v.den
  let lowerFirst := 2 * rest < v.den || (2 * rest == v.den && below % 2 == 0)
  let (first, second) := if lowerFirst then (below, below + 1) else (below + 1, below)
  if roundsTo x t first then some first
  else if roundsTo x t second then some second
  else none

/-- The number of decimal digits before the point of a positive ratio: the `k` with
`10 ^ (k - 1) ≤ num / den < 10 ^ k`. An estimate from the binary sizes is at most one off. -/
def magnitude (v : Ratio) : Int :=
  let size : Int := (Nat.log2 v.num : Int) - (Nat.log2 v.den : Int)
  let estimate : Int := (size * 30103).fdiv 100000
  let fits (k : Int) : Bool := v.num * Nat.pow 10 (-k).toNat < v.den * Nat.pow 10 k.toNat
  if fits (estimate - 1) then estimate - 1
  else if fits estimate then estimate
  else if fits (estimate + 1) then estimate + 1
  else estimate + 2

def stripZeros : (fuel digits : Nat) → (exponent : Int) → Decimal
  | 0, d, e => ⟨d, e⟩
  | fuel + 1, d, e => if d ≠ 0 ∧ d % 10 = 0 then stripZeros fuel (d / 10) (e + 1) else ⟨d, e⟩

/-- The shortest decimal of a finite positive double. Seventeen digits are always enough. -/
def shortest (x : Binary64) : Decimal :=
  let k := magnitude (scaled x.mantissa x.exponent 0)
  let rec search : (fuel : Nat) → (n : Nat) → Decimal
    | 0, n => stripZeros 20 ((onGrid? x (k - n)).getD 0) (k - n)
    | fuel + 1, n =>
      match onGrid? x (k - n) with
      | some d => stripZeros 20 d (k - n)
      | none => search fuel (n + 1)
  search 16 1

end Decimal

end PlotMiner
