import PlotMiner.Mining.Collaborators

/-!
# What the miner asks of the node

A log of the calls that the miner makes to its node, kept beside the state of the world. The world
itself is not changed by being watched.
-/

namespace PlotMiner.Mining

inductive NodeCall where
  | checkReady
  | queryChallenge
  | requestVdf (challenge : Bytes32) (iters : UInt64)
  | submitProof (pack : ProofPack)
  | reloadCookie
deriving DecidableEq

/-- The calls of a log, equal ones in a row taken together and counted. -/
def NodeCall.runs : List NodeCall → List (NodeCall × Nat)
  | [] => []
  | c :: rest =>
    match runs rest with
    | (d, n) :: more => if c = d then (c, n + 1) :: more else (c, 1) :: (d, n) :: more
    | [] => [(c, 1)]

/-- A world with the calls that were made in it, the latest first. -/
structure Logged (W : Type) where
  world : W
  calls : List NodeCall

namespace Logged

variable {W α : Type}

def lift (l : Logged W) (r : α × W) : α × Logged W := (r.1, { l with world := r.2 })

def call (l : Logged W) (c : NodeCall) (r : α × W) : α × Logged W := (r.1, ⟨r.2, c :: l.calls⟩)

def change (l : Logged W) (w : W) : Logged W := { l with world := w }

end Logged

/-- The same collaborators, with every call to the node written down. -/
def Collaborators.logged {W : Type} (co : Collaborators W) : Collaborators (Logged W) where
  checkReady l := l.call .checkReady (co.checkReady l.world)
  queryChallenge l := l.call .queryChallenge (co.queryChallenge l.world)
  requestVdf c i l := l.call (.requestVdf c i) (co.requestVdf c i l.world)
  submitProof p l := l.call (.submitProof p) (co.submitProof p l.world)
  reloadCookie l := l.call .reloadCookie (co.reloadCookie l.world)
  candidates c b l := l.lift (co.candidates c b l.world)
  fullProof p c i l := l.lift (co.fullProof p c i l.world)
  revoke k l := l.change (co.revoke k l.world)
  netspace l := co.netspace l.world
  localKey k l := l.lift (co.localKey k l.world)
  plotId k f t l := l.lift (co.plotId k f t l.world)
  retainOnly c l := l.change (co.retainOnly c l.world)
  cachedProof c i l := co.cachedProof c i l.world
  clearActive l := l.change (co.clearActive l.world)
  broadcast r l := l.change (co.broadcast r l.world)
  inspect v l := l.change (co.inspect v l.world)
  running l := co.running l.world
  now l := co.now l.world
  sleep d l := l.change (co.sleep d l.world)

end PlotMiner.Mining
