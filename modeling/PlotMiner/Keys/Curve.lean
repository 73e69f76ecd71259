import PlotMiner.Bytes
import PlotMiner.Keys.Field

/-!
# The curve of public keys

Public keys are points of the curve `y² = x³ + 4`. A point is written as its first coordinate in 48
bytes, whose three highest bits say that the second coordinate is left out, whether the point is the
one at infinity, and which of the two possible second coordinates it has.
-/

namespace PlotMiner.Keys

inductive KeyError where
  | badEncoding
  | notOnCurve
  | notInGroup
  | nothingToAggregate
  | tooMuchMaterial
  | badWordCount (n : Nat)
  | unknownWord (place : Nat)
  | badChecksum
deriving DecidableEq

def KeyError.message : KeyError → String
  | .badEncoding => "BLST_BAD_ENCODING"
  | .notOnCurve => "BLST_POINT_NOT_ON_CURVE"
  | .notInGroup => "BLST_POINT_NOT_IN_GROUP"
  | .nothingToAggregate => "BLST_AGGR_TYPE_MISMATCH"
  | .tooMuchMaterial => "InvalidLength"
  | .badWordCount n => s!"BadWordCount({n})"
  | .unknownWord place => s!"UnknownWord({place})"
  | .badChecksum => "InvalidChecksum"

inductive Point where
  | infinity
  | affine (x y : Coordinate)
deriving DecidableEq

namespace Point

def generator : Point := .affine
  (Coordinate.ofNat 0x17f1d3a73197d7942695638c4fa9ac0fc3688c4f9774b905a14e3a3f171bac586c55e83ff97a1aeffb3af00adb22c6bb)
  (Coordinate.ofNat 0x08b3f481e3aaa0f1a09e30ed741d8ae4fcf5e095d5d00af600db18cb2c04b3edd03cc744a2888ae40caa232946c5e7e1)

/-- The third point on a line of slope `m` through two points, reflected. -/
def third (m x₁ y₁ x₂ : Coordinate) : Point :=
  let x := m * m - x₁ - x₂
  .affine x (m * (x₁ - x) - y₁)

/-- The sum of two points: by the chord through them, or the tangent where they coincide. -/
def add : Point → Point → Point
  | .infinity, q => q
  | p, .infinity => p
  | .affine x₁ y₁, .affine x₂ y₂ =>
    if x₁ = x₂ then
      if y₁ + y₂ = 0 then .infinity
      else third (3 * x₁ * x₁ * (2 * y₁).inverse) x₁ y₁ x₂
    else third ((y₂ - y₁) * (x₂ - x₁).inverse) x₁ y₁ x₂

/-- `n` times a point, by doubling and adding. -/
def times (n : Nat) (p : Point) : Point :=
  go (n.log2 + 1) n p .infinity
where
  /-- Adds `n` times `p` to `acc` for an `n` of at most `fuel` bits. -/
  go : (fuel n : Nat) → (p acc : Point) → Point
    | 0, _, _, acc => acc
    | fuel + 1, n, p, acc => go fuel (n / 2) (p.add p) (if n % 2 = 1 then acc.add p else acc)

def writtenFlag : Nat := 1 <<< 383

def infinityFlag : Nat := 1 <<< 382

/-- The flag of a point whose second coordinate is larger than its negative. -/
def largeFlag : Nat := 1 <<< 381

/-- The number that is written for a point: the first coordinate below the three flags. -/
def code : Point → Nat
  | .infinity => writtenFlag + infinityFlag
  | .affine x y => writtenFlag + (if y.isLarge then largeFlag else 0) + x.val

/-- The 48 bytes of a point. -/
def toBytes (p : Point) : Bytes48 := .ofNat 48 p.code

def ofBytes (b : Bytes48) : Except KeyError Point :=
  let n := b.toNat
  if n < writtenFlag then .error .badEncoding
  else
    let rest := n - writtenFlag
    if infinityFlag ≤ rest then
      if rest = infinityFlag then .ok .infinity else .error .badEncoding
    else
      let isLarge := decide (largeFlag ≤ rest)
      let x := rest % largeFlag
      if fieldPrime ≤ x then .error .badEncoding
      else
        let x := Coordinate.ofNat x
        match (x * x * x + 4).sqrt? with
        | none => .error .notOnCurve
        | some y =>
          if x = 0 then .error .notInGroup
          else .ok (.affine x (if y.isLarge = isLarge then y else -y))

def aggregate : List Point → Except KeyError Point
  | [] => .error .nothingToAggregate
  | p :: rest => .ok (rest.foldl add p)

end Point

abbrev PublicKey := Point

end PlotMiner.Keys
