import PlotMiner.Mining.Miner
import PlotMiner.Mining.Site
import PlotMiner.Node.Client

/-!
# Starting to mine

From a configuration to a miner at work: the context and the client of the node are made first, and
either can fail; then a link is started to every configured timelord. The miner runs until it is
stopped or meets a plot that belongs to nobody it knows, and the timelords are left.

The parts that the miner is made of report their versions first.

How a request gets to the node and what comes back is the network's business. The network may do
more than answer: while a request is under way, proofs arrive and the miner may be told to stop.
-/

namespace PlotMiner

structure Part where
  name : String
  version : String
deriving DecidableEq

namespace Part

def describe (p : Part) : String := s!"{p.name}: {p.version}"

/-- The consensus rules, the keys, the clients and the miner itself. -/
def all : List Part :=
  [⟨"dg_miner_core", "1.0.0"⟩, ⟨"dg_miner_keys", "1.0.0"⟩, ⟨"dg_miner_clients", "1.0.0"⟩,
    ⟨"dg_miner", "1.0.0"⟩]

end Part

namespace Mining

open Keys Timelord

/-- A node behind a network whose states are of type `S`. -/
structure RemoteNode (S : Type) where
  client : NodeClient
  network : S

/-- What becomes of a request, and of everything else in the meantime. -/
abbrev Courier (S : Type) := Request → Site (RemoteNode S) → Delivery × Site (RemoteNode S)

namespace RemoteNode

variable {S α : Type}

def ask [Json.Decode α] (send : Courier S) (q : Query α) (s : Site (RemoteNode S)) :
    Except Failure α × Site (RemoteNode S) :=
  let (delivery, s) := send (s.node.client.request q) s
  (q.answer delivery, s)

/-- Reads the credentials again. -/
def reload (files : CookieFiles) (s : Site (RemoteNode S)) :
    Except Failure Bool × Site (RemoteNode S) :=
  let (client, result) := s.node.client.reloadCookie files
  (result, { s with node := { s.node with client := client } })

/-- How a miner reaches the node. -/
def access (send : Courier S) (files : CookieFiles) : NodeAccess (RemoteNode S) where
  checkReady := ask send Query.checkReady
  queryChallenge := ask send Query.challenge
  requestVdf challenge iters := ask send (Query.requestVdf challenge iters)
  submitProof pack s :=
    let (result, s) := ask send (Query.submitProof pack) s
    (result.map fun _ => (), s)
  reloadCookie := reload files

end RemoteNode

/-- The engine that derives keys, with its errors as failures. -/
def keyEngine : KeyEngine Failure := blsEngine.mapError fun e => .other .invalidInput e.message

structure Launch where
  context : Context
  client : NodeClient
  fleet : Fleet

namespace Launch

/-- Prepares for a configuration. Nothing is prepared unless everything can be. -/
def ofConfig (c : MinerConfig) (cookie : Option Path) (files : CookieFiles) :
    Except Failure Launch := do
  let context ← Context.ofConfig c
  let client ← NodeClient.ofConfig c.rpc cookie files
  return ⟨context, client, Fleet.empty.startAll c.timelords defaultPort⟩

variable {S : Type}

def site (l : Launch) (plots : PlotCatalog) (network : S) : Site (RemoteNode S) :=
  ⟨⟨l.client, network⟩, plots, l.fleet, 0, true⟩

/-- Mines from a start on, in at most `steps` steps of at most `fuel` looks each. -/
def mine (l : Launch) (plots : PlotCatalog) (network : S) (send : Courier S) (files : CookieFiles)
    (fuel steps : Nat) : Outcome × Site (RemoteNode S) :=
  let co := Site.collaborators (RemoteNode.access send files) keyEngine
  let (outcome, _, s) := Miner.initial.run l.context co fuel steps (l.site plots network)
  (outcome, s.withFleet Fleet.shutdown)

end Launch

end Mining

end PlotMiner
