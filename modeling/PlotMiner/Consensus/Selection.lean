import PlotMiner.Consensus.Quality
import PlotMiner.Failure
import PlotMiner.Plot.Memo

/-!
# Choosing a proof of space

Of the answers that the plots give to a challenge, the one that has to wait for the fewest
iterations is chosen, and the first of those that have to wait equally long.
-/

namespace PlotMiner

structure ScoredCandidate where
  candidate : Candidate
  mixed : Bytes32
  iters : UInt64
deriving DecidableEq

inductive SelectionError where
  | noCandidates
  | noQuality
  | plotTooLarge
deriving DecidableEq

def SelectionError.message : SelectionError → String
  | .noCandidates => "Cannot select the best proof from an empty candidate set"
  | .noQuality => "Every candidate carried an empty quality string"
  | .plotTooLarge => "The size of a plot is out of range"

/-- What is wrong, where it is a failure. A size that is out of range ends the program instead. -/
def SelectionError.kind? : SelectionError → Option FailureKind
  | .noCandidates | .noQuality => some .invalidInput
  | .plotTooLarge => none

namespace Candidate

def hasQuality (c : Candidate) : Bool := c.quality.toList.any (· != 0)

def score? (c : Candidate) (challenge : Bytes32) (t : Target) : Option ScoredCandidate := do
  let mixed := mixQuality c.quality.toList challenge
  return ⟨c, mixed, ← t.iterations? mixed c.k⟩

end Candidate

namespace ScoredCandidate

/-- The better of two, the first one where they are equal. -/
def better (a b : ScoredCandidate) : ScoredCandidate := if b.iters < a.iters then b else a

/-- The first of those that have to wait for the fewest iterations. -/
def best? : List ScoredCandidate → Option ScoredCandidate
  | [] => none
  | s :: rest => some (rest.foldl better s)

end ScoredCandidate

/-- Chooses a candidate. Those without quality take no part. -/
def selectBest (candidates : List Candidate) (challenge : Bytes32) (t : Target) :
    Except SelectionError ScoredCandidate :=
  if candidates.isEmpty then .error .noCandidates
  else
    match (candidates.filter Candidate.hasQuality).mapM (Candidate.score? · challenge t) with
    | none => .error .plotTooLarge
    | some scored =>
      match ScoredCandidate.best? scored with
      | none => .error .noQuality
      | some s => .ok s

end PlotMiner
