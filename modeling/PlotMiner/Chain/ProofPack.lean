import PlotMiner.Chain.VdfProof
import PlotMiner.Plot.Memo

/-!
# What is submitted for a block

A proof of space and a time proof for the same challenge go to the node together, with the secret
key of the farmer and the address of the reward.
-/

namespace PlotMiner

open Json

structure ProofPack where
  prevBlockHash : Bytes32
  prevBlockHeight : UInt32
  pos : SpaceProof
  vdf : VdfProof
  farmerKey : Bytes32
  rewardTo : String
deriving DecidableEq

inductive PackError where
  | challengeMismatch (vdf pos : Bytes32)
  | tooFewIters (got required : UInt64)
deriving DecidableEq

def PackError.message : PackError → String
  | .challengeMismatch vdf pos =>
    s!"VDF challenge {vdf.toHex} does not match PoS challenge {pos.toHex}"
  | .tooFewIters got required => s!"VDF iters {got.toNat} below required {required.toNat}"

namespace ProofPack

/-- Both proofs are for one challenge, and the time proof covers the iterations that the proof of
space has to wait for. -/
def validate (p : ProofPack) : Except PackError Unit :=
  if p.vdf.challenge ≠ p.pos.challenge then
    .error (.challengeMismatch p.vdf.challenge p.pos.challenge)
  else if p.vdf.iters < p.pos.iters then .error (.tooFewIters p.vdf.iters p.pos.iters)
  else .ok ()

end ProofPack

def SpaceProof.params (p : SpaceProof) : Value :=
  .object [("challenge", encode p.challenge), ("k", encode p.k),
    ("pool_pk_or_hash", .string p.target.toHex), ("plot_type", .nat p.target.plotType.code),
    ("local_pk", encode p.localKey), ("proof", encode p.proof)]

def VdfProof.params (p : VdfProof) : Value :=
  .object [("challenge", encode p.challenge), ("y", encode p.y), ("proof", encode p.proof),
    ("iters", encode p.iters), ("witness_type", encode p.witnessType),
    ("duration", encode p.duration)]

def ProofPack.params (p : ProofPack) : List Value :=
  [encode p.prevBlockHash, encode p.prevBlockHeight, encode p.pos.challenge, p.pos.params,
    encode p.farmerKey, p.vdf.params, encode p.rewardTo]

end PlotMiner
