import PlotMiner.Keys.PlotKey
import PlotMiner.Mining.CallLog
import PlotMiner.Plot.Catalog
import PlotMiner.Timelord.Fleet

/-!
# Where the miner stands

The surroundings of a miner: a catalog of plots, a fleet of timelords with its cache, a clock and
the flag that says whether to go on. A miner without timelords has a fleet without endpoints. What
the node is stays open.
-/

namespace PlotMiner.Mining

open Keys Timelord

/-- The surroundings of a miner, with a node whose states are of type `N`. -/
structure Site (N : Type) where
  node : N
  plots : PlotCatalog
  fleet : Fleet
  /-- The time in nanoseconds. -/
  clock : Nat
  running : Bool

/-- How a node answers. Whatever else happens while it is asked, happens to the site. -/
structure NodeAccess (N : Type) where
  checkReady : Site N → Except Failure Bool × Site N
  queryChallenge : Site N → Except Failure Challenge × Site N
  requestVdf : Bytes32 → UInt64 → Site N → Except Failure Bool × Site N
  submitProof : ProofPack → Site N → Except Failure Unit × Site N
  reloadCookie : Site N → Except Failure Bool × Site N

namespace Site

variable {N : Type}

def netspace (s : Site N) : Netspace := ⟨s.plots.groupHash, s.plots.totalSize⟩

def withFleet (s : Site N) (f : Fleet → Fleet) : Site N := { s with fleet := f s.fleet }

def withCache (s : Site N) (f : ProofCache → ProofCache) : Site N :=
  s.withFleet fun fleet => { fleet with cache := f fleet.cache }

/-- The collaborators that a site provides. -/
def collaborators (node : NodeAccess N) (keys : KeyEngine Failure) : Collaborators (Site N) where
  checkReady := node.checkReady
  queryChallenge := node.queryChallenge
  requestVdf := node.requestVdf
  submitProof := node.submitProof
  reloadCookie := node.reloadCookie
  candidates c bits s := (.ok (s.plots.candidates c bits), s)
  fullProof path c i s := (s.plots.fullProof path c i, s)
  revoke key s := { s with plots := s.plots.revoke key }
  netspace := netspace
  localKey sk s := (keys.localKey sk, s)
  plotId localKey farmerKey t s := (keys.plotId localKey farmerKey t, s)
  retainOnly c s := s.withCache (·.retainOnly c)
  cachedProof c iters s := s.fleet.cache.bestAtLeast c iters
  clearActive s := s.withFleet Fleet.clearActive
  broadcast request s := s.withFleet (·.broadcast request resendSeconds)
  inspect _ s := s
  running := Site.running
  now := clock
  sleep d s := { s with clock := s.clock + d }

end Site

end PlotMiner.Mining
