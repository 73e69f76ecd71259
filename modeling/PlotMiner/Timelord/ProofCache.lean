import PlotMiner.Chain.VdfProof

/-!
# Proofs that timelords delivered

The cache keeps the proofs of each challenge in the order of their arrival, duplicates included. A
look-up hands out the first one that covers the iterations asked for, even if a later one would fit
more tightly.
-/

namespace PlotMiner

structure ProofCache where
  entries : List (Bytes32 × List ProofDetail)

namespace ProofCache

def empty : ProofCache := ⟨[]⟩

instance : Inhabited ProofCache := ⟨empty⟩

/-- The proofs of a challenge, the earliest first. -/
def proofs (c : ProofCache) (challenge : Bytes32) : List ProofDetail :=
  (c.entries.lookup challenge).getD []

/-- Adds a proof behind those that its challenge has. -/
def recordIn (challenge : Bytes32) (d : ProofDetail) :
    List (Bytes32 × List ProofDetail) → List (Bytes32 × List ProofDetail)
  | [] => [(challenge, [d])]
  | (c, ds) :: rest =>
    if c = challenge then (c, ds ++ [d]) :: rest else (c, ds) :: recordIn challenge d rest

def record (c : ProofCache) (challenge : Bytes32) (d : ProofDetail) : ProofCache :=
  ⟨recordIn challenge d c.entries⟩

/-- The first proof of a challenge that covers `minIters`. -/
def bestAtLeast (c : ProofCache) (challenge : Bytes32) (minIters : UInt64) : Option ProofDetail :=
  (c.proofs challenge).find? fun d => minIters ≤ d.iters

/-- Drops the proofs of every other challenge. -/
def retainOnly (c : ProofCache) (challenge : Bytes32) : ProofCache :=
  ⟨c.entries.filter (·.1 = challenge)⟩

def count (c : ProofCache) (challenge : Bytes32) : Nat := (c.proofs challenge).length

def challengeCount (c : ProofCache) : Nat := c.entries.length

end ProofCache

end PlotMiner
