/-!
# Binary floating point numbers

A double is kept as its 64 bits, so that two of them can be told apart and compared as data. A
finite one is `(-1)^sign * mantissa * 2^exponent` with integers `mantissa` and `exponent`. Rounding
to a double, or to an integer, goes to the nearest value, and a tie to the even one.
-/

namespace PlotMiner

/-- The bits of a double: sign, eleven bits of exponent, fifty-two of fraction. -/
structure Binary64 where
  bits : UInt64
deriving DecidableEq

namespace Binary64

/-- The leading bit of the mantissa of a double that is not among the smallest. -/
def leadingBit : Nat := 1 <<< 52

def ofFloat (x : Float) : Binary64 := ⟨x.toBits⟩

def toFloat (x : Binary64) : Float := Float.ofBits x.bits

def isNegative (x : Binary64) : Bool := x.bits >>> 63 == 1

def rawExponent (x : Binary64) : Nat := ((x.bits >>> 52) &&& 0x7FF).toNat

def rawFraction (x : Binary64) : Nat := (x.bits &&& 0xFFFFFFFFFFFFF).toNat

def isFinite (x : Binary64) : Bool := x.rawExponent != 0x7FF

def isNaN (x : Binary64) : Bool := !x.isFinite && x.rawFraction != 0

def mantissa (x : Binary64) : Nat :=
  if x.rawExponent = 0 then x.rawFraction else leadingBit + x.rawFraction

/-- The power of two that the mantissa of a finite double is multiplied with. -/
def exponent (x : Binary64) : Int :=
  if x.rawExponent = 0 then -1074 else (x.rawExponent : Int) - 1075

end Binary64

/-- The quotient rounded to the nearest integer, a tie going to the even one. -/
def divRoundEven (num den : Nat) : Nat :=
  let q := num / den
  let r := num % den
  if 2 * r < den then q
  else if den < 2 * r then q + 1
  else if q % 2 = 0 then q else q + 1

/-- The double nearest to a natural number; infinity from `2 ^ 1024` on. -/
def Binary64.ofNat (n : Nat) : Binary64 :=
  if n = 0 then ⟨0⟩
  else
    let size := Nat.log2 n + 1
    if size ≤ 53 then
      ⟨UInt64.ofNat ((size + 1022) * leadingBit + ((n <<< (53 - size)) - leadingBit))⟩
    else
      let m := divRoundEven n (1 <<< (size - 53))
      let (m, size) := if m = 2 * leadingBit then (leadingBit, size + 1) else (m, size)
      if 1024 < size then ⟨0x7FF0000000000000⟩
      else ⟨UInt64.ofNat ((size + 1022) * leadingBit + (m - leadingBit))⟩

end PlotMiner
