import PlotMiner.Json.Record

/-!
# Proofs of elapsed time

A VDF proof shows that a number of iterations was computed on a challenge. A timelord delivers the
proof alone; the challenge that it belongs to travels beside it.
-/

namespace PlotMiner

open Json

/-- A proof as a timelord delivers it. -/
structure ProofDetail where
  y : Blob
  proof : Blob
  witnessType : UInt8
  iters : UInt64
  /-- Seconds that the computation took. -/
  duration : UInt64
deriving DecidableEq, Inhabited

structure VdfProof where
  challenge : Bytes32
  y : Blob
  proof : Blob
  witnessType : UInt8
  iters : UInt64
  duration : UInt64
deriving DecidableEq, Inhabited

/-- The proof for the challenge it was delivered for. A computation takes at least one second. -/
def ProofDetail.forChallenge (d : ProofDetail) (challenge : Bytes32) : VdfProof where
  challenge := challenge
  y := d.y
  proof := d.proof
  witnessType := d.witnessType
  iters := d.iters
  duration := max d.duration 1

instance : Decode ProofDetail :=
  ⟨Record.read "ProofDetail" <|
    Record.pure ProofDetail.mk
      |>.field "y" |>.field "proof" |>.field "witness_type" |>.field "iters" |>.field "duration"⟩

instance : Encode ProofDetail :=
  ⟨fun d => .object [("y", encode d.y), ("proof", encode d.proof),
    ("witness_type", encode d.witnessType), ("iters", encode d.iters),
    ("duration", encode d.duration)]⟩

instance : Decode VdfProof :=
  ⟨Record.read "VdfProof" <|
    Record.pure VdfProof.mk
      |>.field "challenge" |>.field "y" |>.field "proof" |>.field "witness_type"
      |>.field "iters" |>.field "duration"⟩

instance : Encode VdfProof :=
  ⟨fun p => .object [("challenge", encode p.challenge), ("y", encode p.y),
    ("proof", encode p.proof), ("witness_type", encode p.witnessType), ("iters", encode p.iters),
    ("duration", encode p.duration)]⟩

end PlotMiner
