import PlotMiner.Chain.Challenge
import PlotMiner.Chain.ProofPack
import PlotMiner.Failure
import PlotMiner.Timelord.Message

/-!
# Whom the miner works with

The miner asks a node, a store of plots, the keys, the timelords and their cache, and a clock. All
of them are part of one world, whose states are of a type `W`: each question is a function of the
state of the world and leaves it in another one, so that answers may depend on whatever happened
before.
-/

namespace PlotMiner.Mining

structure Collaborators (W : Type) where
  checkReady : W → Except Failure Bool × W
  queryChallenge : W → Except Failure Challenge × W
  requestVdf : Bytes32 → UInt64 → W → Except Failure Bool × W
  submitProof : ProofPack → W → Except Failure Unit × W
  reloadCookie : W → Except Failure Bool × W
  candidates : Bytes32 → UInt8 → W → Except Failure (List Candidate) × W
  fullProof : Path → Bytes32 → Nat → W → Except Failure Blob × W
  revoke : Bytes48 → W → W
  netspace : W → Timelord.Netspace
  localKey : Bytes32 → W → Except Failure Bytes48 × W
  plotId : Bytes48 → Bytes48 → PoolTarget → W → Except Failure Bytes32 × W
  /-- Drops the cached proofs of every other challenge. -/
  retainOnly : Bytes32 → W → W
  /-- The first cached proof of a challenge that covers some iterations. -/
  cachedProof : Bytes32 → UInt64 → W → Option ProofDetail
  clearActive : W → W
  broadcast : Timelord.Calc → W → W
  inspect : VdfProof → W → W
  running : W → Bool
  /-- The time, in nanoseconds. -/
  now : W → Nat
  sleep : Nat → W → W

end PlotMiner.Mining
