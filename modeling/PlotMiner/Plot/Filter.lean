import PlotMiner.Hash.Sha256

/-!
# The plot filter

Only a few of all plots take part in a round: those for which the hash of the plot's id and the
challenge begins with enough zero bits.
-/

namespace PlotMiner

/-- Whether the first `bits` bits of a byte string are zero. Bits beyond its end count as zero. -/
def leadingZeroBits (bits : Nat) : List UInt8 → Bool
  | [] => true
  | b :: rest =>
    if bits = 0 then true
    else if bits < 8 then b.toNat >>> (8 - bits) = 0
    else b == 0 && leadingZeroBits (bits - 8) rest

/-- Whether a plot takes part in the round of a challenge. -/
def passesFilter (filterBits : UInt8) (plotId challenge : Bytes32) : Bool :=
  leadingZeroBits filterBits.toNat (Sha256.hash (plotId.wordOrder ++ challenge.wordOrder)).toList

/-- The test of the leading bits by place: the whole bytes first, and of the byte after them, if any
bits are left over, those bits. None if a place lies beyond the end. -/
def leadingZeroBits? (bits : Nat) (bytes : List UInt8) : Option Bool :=
  let whole := bits / 8
  let left := bits % 8
  if bytes.length < whole then none
  else if (bytes.take whole).any (· != 0) then some false
  else if left = 0 then some true
  else bytes[whole]?.map fun b => b.toNat >>> (8 - left) = 0

/-- The plot filter with its look-ups in the hash, which is made only if there are bits to test. -/
def passesFilter? (filterBits : UInt8) (plotId challenge : Bytes32) : Option Bool :=
  if filterBits = 0 then some true
  else
    leadingZeroBits? filterBits.toNat
      (Sha256.hash (plotId.wordOrder ++ challenge.wordOrder)).toList

end PlotMiner
