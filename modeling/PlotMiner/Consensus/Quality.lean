import PlotMiner.Decimal.Binary64
import PlotMiner.Hash.Sha256

/-!
# Quality of a proof of space

A plot answers a challenge with quality strings. Bound to the challenge by a hash, such a string
becomes a number; its lowest 32 bits and the size of the plot decide how many iterations of a time
proof have to pass before the proof of space is worth a block.
-/

namespace PlotMiner

/-- The size of a plot of size class `k`, as long as 64 bits hold it. They do up to `k = 58`. -/
def expectedPlotSize? (k : UInt8) : Option UInt64 :=
  let size := (2 * k.toNat + 1) <<< (k.toNat - 1)
  if size < UInt64.size then some (UInt64.ofNat size) else none

def lower32 (mixed : Bytes32) : UInt32 := UInt32.ofNat (mixed.toNat % UInt32.size)

/-- A quality string bound to a challenge. Without a quality string there is nothing to bind, and
the result is null. -/
def mixQuality (quality : List UInt8) (challenge : Bytes32) : Bytes32 :=
  if quality.isEmpty then SizedBytes.zero 32
  else Sha256.hash (quality ++ challenge.wordOrder)

/-- What decides how many iterations a mixed quality asks for, apart from the plot. -/
structure Target where
  difficulty : UInt64
  filterBits : UInt8
  /-- The power of two that scales the difficulty. -/
  factorBits : UInt8
  baseIters : UInt64
deriving DecidableEq

/-- The iterations that a proof with this mixed quality has to wait for: at least one, and at most
as many as 64 bits hold. -/
def Target.iterations? (t : Target) (mixed : Bytes32) (k : UInt8) : Option UInt64 := do
  let size ← expectedPlotSize? k
  let scaled := (t.difficulty.toNat <<< t.factorBits.toNat) * (lower32 mixed).toNat
  let iters := (scaled >>> t.filterBits.toNat) / (size.toNat * UInt32.size) + t.baseIters.toNat
  return UInt64.ofNat (max 1 (min (UInt64.size - 1) iters))

/-- The share of the 32-bit range that lies below a mixed quality. The quotient by a power of two is
exact. -/
def shareBelow (mixed : Bytes32) : Binary64 :=
  .ofFloat ((lower32 mixed).toFloat / 4294967296.0)

/-- The size of the plot divided by the share below its mixed quality, rounded down to an integer
and then to a double. There is none when the share is zero. -/
def qualityOf? (mixed : Bytes32) (k : UInt8) : Option (Option Binary64) := do
  let low := (lower32 mixed).toNat
  if low = 0 then return none
  let size ← expectedPlotSize? k
  return some (Binary64.ofNat (size.toNat * UInt32.size / low))

end PlotMiner
