import PlotMiner.Chain.VdfProof

/-!
# Challenges

One round of consensus as a node reports it: what has to be proved, against what difficulty, and the
time proofs that the node knows already.
-/

namespace PlotMiner

open Json

structure Challenge where
  challenge : Bytes32
  difficulty : UInt64
  prevBlockHash : Bytes32
  prevBlockHeight : UInt32
  prevVdfIters : UInt64
  prevVdfDuration : UInt64
  targetHeight : UInt32
  /-- Seconds that the round is meant to take. -/
  targetDuration : UInt64
  filterBits : UInt8
  baseIters : UInt64
  vdfProofs : List VdfProof
deriving DecidableEq, Inhabited

namespace Challenge

instance : Decode Challenge :=
  ⟨Record.read "Challenge" <|
    Record.pure Challenge.mk
      |>.field "challenge" |>.field "difficulty" |>.field "prev_block_hash"
      |>.field "prev_block_height" |>.field "prev_vdf_iters" |>.field "prev_vdf_duration"
      |>.field "target_height" |>.field "target_duration" |>.field "filter_bits"
      |>.field "base_iters" |>.fieldD "vdf_proofs" []⟩

instance : Encode Challenge :=
  ⟨fun c => .object [("challenge", encode c.challenge), ("difficulty", encode c.difficulty),
    ("prev_block_hash", encode c.prevBlockHash),
    ("prev_block_height", encode c.prevBlockHeight),
    ("prev_vdf_iters", encode c.prevVdfIters),
    ("prev_vdf_duration", encode c.prevVdfDuration),
    ("target_height", encode c.targetHeight), ("target_duration", encode c.targetDuration),
    ("filter_bits", encode c.filterBits), ("base_iters", encode c.baseIters),
    ("vdf_proofs", encode c.vdfProofs)]⟩

/-- The iterations that a day takes at the speed of the previous block, as long as 64 bits hold the
number. A round without a proof of space waits for that many. -/
def oneDayIters? (c : Challenge) : Option UInt64 :=
  let perSecond := c.prevVdfIters.toNat / max c.prevVdfDuration.toNat 1
  let total := perSecond * 60 * 60 * 24
  if total < UInt64.size then some (UInt64.ofNat total) else none

/-- The first time proof that the node reports for this challenge and that covers `iters`. -/
def findVdfProof (c : Challenge) (iters : UInt64) : Option VdfProof :=
  c.vdfProofs.find? fun p => p.challenge = c.challenge && iters ≤ p.iters

end Challenge

end PlotMiner
