/-!
# Difficulty

How the difficulty follows the time that blocks take, and what it says about the space of the
network.
-/

namespace PlotMiner

structure AdjustmentRule where
  targetDuration : UInt64
  targetFactor : Float
  /-- Seconds added to the target. -/
  durationFix : Int64
  /-- How far one adjustment may move the difficulty, in either direction. -/
  maxFactor : Float
  networkMinimum : UInt64

namespace AdjustmentRule

/-- The target in whole seconds. What is below zero or no number counts as zero, what is beyond 64
bits as the largest number they hold. -/
def scaledTarget (r : AdjustmentRule) : UInt64 :=
  (r.targetDuration.toFloat * r.targetFactor + r.durationFix.toFloat).toUInt64

def upperBound (r : AdjustmentRule) (previous : UInt64) : UInt64 :=
  (previous.toFloat * r.maxFactor).toUInt64

def lowerBound (r : AdjustmentRule) (previous : UInt64) : UInt64 :=
  (previous.toFloat / r.maxFactor).toUInt64

/-- The difficulty that a block of `duration` seconds suggests, before it is bounded. -/
def suggested (r : AdjustmentRule) (previous duration : UInt64) : UInt64 :=
  let perSecond := max (previous / duration) 1
  let product := min (UInt64.size - 1) (perSecond.toNat * r.scaledTarget.toNat)
  max (UInt64.ofNat product) r.networkMinimum

/-- The difficulty after a block of difficulty `previous` that took `duration` seconds; none if it
took no time. An increase is bounded from above only, anything else from below only. -/
def adjust? (r : AdjustmentRule) (previous duration : UInt64) : Option UInt64 :=
  if duration = 0 then none
  else
    let new := r.suggested previous duration
    let bounded :=
      if previous < new then min new (r.upperBound previous) else max new (r.lowerBound previous)
    some (max bounded 1)

end AdjustmentRule

def zeroDurationMessage : String := "Block duration must be greater than zero"

/-- An estimate of the space of the network from a block that took `iters` iterations. -/
def networkSpace (difficulty iters : UInt64) (factorBits : UInt8) : Nat :=
  if iters = 0 then 0
  else ((difficulty.toNat / iters.toNat) <<< factorBits.toNat) * 762 / 1000

end PlotMiner
