/-!
# The base field of BLS12-381

Numbers modulo a prime of 381 bits that leaves the remainder 3 when divided by 4, so that square
roots are powers.
-/

namespace PlotMiner.Keys

/-- The prime that coordinates are taken modulo. -/
def fieldPrime : Nat :=
  0x1a0111ea397fe69a4b1ba7b6434bacd764774b84f38512bf6730d2a0f6b0f6241eabfffeb153ffffb9feffffffffaaab

instance : @NeZero Nat Zero.ofOfNat0 fieldPrime := ⟨by decide⟩

abbrev Coordinate := Fin fieldPrime

namespace Coordinate

def ofNat (n : Nat) : Coordinate := Fin.ofNat fieldPrime n

/-- `x ^ e`, by repeated squaring. -/
def power (x : Coordinate) (e : Nat) : Coordinate :=
  go (e.log2 + 1) e x 1
where
  /-- Multiplies `acc` with `x ^ e` for an `e` of at most `fuel` bits. -/
  go : (fuel e : Nat) → (x acc : Coordinate) → Coordinate
    | 0, _, _, acc => acc
    | fuel + 1, e, x, acc => go fuel (e / 2) (x * x) (if e % 2 = 1 then acc * x else acc)

def inverse (x : Coordinate) : Coordinate := power x (fieldPrime - 2)

def sqrt? (x : Coordinate) : Option Coordinate :=
  let y := power x ((fieldPrime + 1) / 4)
  if y * y = x then some y else none

def isLarge (x : Coordinate) : Bool := (fieldPrime - 1) / 2 < x.val

end Coordinate

end PlotMiner.Keys
