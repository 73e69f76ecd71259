import PlotMiner.Consensus.Selection
import PlotMiner.Mining.Collaborators
import PlotMiner.Mining.Context

/-!
# The miner

A miner goes through rounds. In a round it adopts the node's challenge, finds the best proof of
space that its plots have, waits until a time proof covers the iterations that this one asks for,
and submits both. Without a proof of space it still waits, so that it notices the next challenge.
A challenge that has been submitted is not mined again.

Each step takes the miner from one phase to the next and the world along with it.
-/

namespace PlotMiner.Mining

open Timelord (Calc)

inductive Phase where
  | requireChallenge
  | findPos
  | waitVdf
  | processVdf
  | submitProofs
deriving DecidableEq, Inhabited

def Phase.name : Phase → String
  | requireChallenge => "RequireChallenge"
  | findPos => "FindPoS"
  | waitVdf => "WaitVDF"
  | processVdf => "ProcessVDF"
  | submitProofs => "SubmitProofs"

structure Miner where
  phase : Phase
  /-- The challenge that the node reported last. -/
  queried : Challenge
  /-- The challenge of the round. -/
  current : Option Bytes32
  iters : UInt64
  pos : Option SpaceProof
  vdf : Option VdfProof
  /-- The secret key of the farmer whose plot gave the proof of space. -/
  farmerKey : Option Bytes32
  /-- Iterations a second, as the last time proof showed. -/
  vdfSpeed : UInt64
  submitted : List Bytes32
deriving DecidableEq

/-- Iterations a second, before any time proof has shown more. -/
def defaultVdfSpeed : UInt64 := 100000

inductive Exit where
  | stopped
  | plotIdMismatch (path : Path)
deriving DecidableEq

def Exit.code : Exit → Int
  | stopped => 0
  | plotIdMismatch _ => 1

/-- What waiting for a time proof came to. -/
inductive BreakReason where
  | challengeChanged
  | acquired (vdf : VdfProof)
  | timeout
  | error
  /-- The bound on the number of looks was reached before anything happened. -/
  | unfinished
deriving DecidableEq

/-- What a step came to, besides the new state. -/
inductive Outcome where
  | continued
  | exit (e : Exit)
  | failed (f : Failure)
  /-- A number left the range of its type. -/
  | overflow
  /-- The bound on the number of looks was reached. -/
  | unfinished
deriving DecidableEq

namespace Miner

instance : Inhabited Miner :=
  ⟨⟨.requireChallenge, default, none, 0, none, none, none, defaultVdfSpeed, []⟩⟩

def initial : Miner := default

def isSubmitted (m : Miner) (challenge : Bytes32) : Bool := m.submitted.contains challenge

/-- The miner without what belongs to a round. -/
def cleared (m : Miner) : Miner :=
  { m with pos := none, vdf := none, farmerKey := none, current := none, iters := 0 }

/-- The miner at the beginning of a round. -/
def adopt (m : Miner) (c : Challenge) : Miner :=
  { m with current := some c.challenge, queried := c, phase := .findPos }

variable {W : Type}

/-- Asks for a challenge and adopts it, unless it has been submitted. -/
def requireChallenge (ctx : Context) (co : Collaborators W) (m : Miner) (w : W) :
    Outcome × Miner × W :=
  match co.checkReady w with
  | (.error e, w) => (.failed e, m, w)
  | (.ok false, w) => (.continued, m, co.sleep ctx.timings.notReadyWait w)
  | (.ok true, w) =>
    let m := m.cleared
    match co.queryChallenge (co.clearActive w) with
    | (.error e, w) => (.failed e, m, w)
    | (.ok c, w) =>
      if m.isSubmitted c.challenge then
        (.continued, { m with queried := c }, co.sleep ctx.timings.duplicateWait w)
      else (.continued, m.adopt c, co.retainOnly c.challenge w)

def target (ctx : Context) (m : Miner) : Target :=
  ⟨m.queried.difficulty, m.queried.filterBits, ctx.factorBits, m.queried.baseIters⟩

/-- Goes on without a proof of space and waits for as many iterations as a day takes. -/
def waitWithoutPos (m : Miner) (w : W) : Outcome × Miner × W :=
  match m.queried.oneDayIters? with
  | none => (.overflow, m, w)
  | some iters => (.continued, { m with iters := iters, phase := .waitVdf }, w)

/-- The local key of a candidate's plot and the id that the plot should have. -/
def derive (co : Collaborators W) (c : Candidate) (w : W) :
    Except Failure (Bytes48 × Bytes32) × W :=
  match co.localKey c.memo.localMasterKey w with
  | (.error e, w) => (.error e, w)
  | (.ok localKey, w) =>
    match co.plotId localKey c.memo.farmerKey c.memo.target w with
    | (.error e, w) => (.error e, w)
    | (.ok id, w) => (.ok (localKey, id), w)

def spaceProof (challenge : Bytes32) (s : ScoredCandidate) (localKey : Bytes48) (proof : Blob) :
    SpaceProof where
  challenge := challenge
  k := s.candidate.k
  plotId := s.candidate.plotId
  target := s.candidate.memo.target
  localKey := localKey
  proof := proof
  mixed := s.mixed
  iters := s.iters

/-- Makes a proof of space of the chosen candidate, whose farmer has a secret key. -/
def provePos (co : Collaborators W) (m : Miner) (s : ScoredCandidate) (farmerKey : Bytes32)
    (w : W) : Outcome × Miner × W :=
  match derive co s.candidate w with
  | (.error _, w) => m.waitWithoutPos w
  | (.ok (localKey, id), w) =>
    if id ≠ s.candidate.plotId then (.exit (.plotIdMismatch s.candidate.path), m, w)
    else
      match co.fullProof s.candidate.path m.queried.challenge s.candidate.index w with
      | (.error _, w) => m.waitWithoutPos w
      | (.ok proof, w) =>
        (.continued,
          { m with
            iters := s.iters
            farmerKey := some farmerKey
            pos := some (spaceProof m.queried.challenge s localKey proof)
            phase := .waitVdf },
          w)

def candidatesOf : Except Failure (List Candidate) → List Candidate
  | .ok cs => cs
  | .error _ => []

/-- Finds the best proof of space. The plots of a farmer without a secret key are dropped, and the
search begins again. -/
def findPos (ctx : Context) (co : Collaborators W) (m : Miner) (w : W) : Outcome × Miner × W :=
  let (found, w) := co.candidates m.queried.challenge m.queried.filterBits w
  match selectBest (candidatesOf found) m.queried.challenge (m.target ctx) with
  | .error .plotTooLarge => (.overflow, m, w)
  | .error _ => m.waitWithoutPos w
  | .ok s =>
    match ctx.farmerKeys.find? s.candidate.memo.farmerKey with
    | none => (.continued, m, co.revoke s.candidate.memo.farmerKey w)
    | some farmerKey => m.provePos co s farmerKey w

/-- What the node's challenge says about the wait for a proof that covers `iters`; nothing when the
wait goes on. -/
def verdict? (co : Collaborators W) (challenge : Bytes32) (iters : UInt64) (c : Challenge) (w : W) :
    Option BreakReason :=
  if c.challenge ≠ challenge then some .challengeChanged
  else
    match c.findVdfProof iters with
    | some vdf => some (.acquired vdf)
    | none => (co.cachedProof challenge iters w).map fun d => .acquired (d.forChallenge challenge)

/-- Looks at the node and the cache until one of them decides the wait that began at `start`. -/
def poll (ctx : Context) (co : Collaborators W) (challenge : Bytes32) (iters : UInt64)
    (start timeout : Nat) : (fuel : Nat) → W → BreakReason × W
  | 0, w => (.unfinished, w)
  | fuel + 1, w =>
    if !co.running w then (.error, w)
    else if timeout ≤ co.now w - start then (.timeout, w)
    else
      match co.queryChallenge w with
      | (.ok c, w) =>
        match verdict? co challenge iters c w with
        | some reason => (reason, w)
        | none => poll ctx co challenge iters start timeout fuel (co.sleep ctx.timings.pollTick w)
      | (.error (.rpc _ _), w) =>
        poll ctx co challenge iters start timeout fuel (co.sleep ctx.timings.rpcErrorWait w)
      | (.error _, w) => (.error, w)

/-- Requests a time proof from the node and the timelords, and waits for it. -/
def checkAndBreak (ctx : Context) (co : Collaborators W) (fuel : Nat) (m : Miner) (timeout : Nat)
    (w : W) : BreakReason × W :=
  let challenge := m.queried.challenge
  let (_, w) := co.requestVdf challenge m.iters w
  let w := co.broadcast ⟨challenge, m.iters, co.netspace w⟩ w
  poll ctx co challenge m.iters (co.now w) timeout fuel w

/-- The speed that a time proof shows, if it took long enough to show one. -/
def speedAfter (m : Miner) (vdf : VdfProof) : UInt64 :=
  if 3 ≤ vdf.duration then vdf.iters / vdf.duration else m.vdfSpeed

def waitVdf (ctx : Context) (co : Collaborators W) (fuel : Nat) (m : Miner) (w : W) :
    Outcome × Miner × W :=
  match ctx.timings.vdfTimeout? m.queried.targetDuration with
  | none => (.overflow, m, w)
  | some timeout =>
    match m.checkAndBreak ctx co fuel timeout w with
    | (.challengeChanged, w) => (.continued, { m with phase := .requireChallenge }, w)
    | (.acquired vdf, w) =>
      (.continued, { m with vdfSpeed := m.speedAfter vdf, vdf := some vdf, phase := .processVdf },
        co.inspect vdf w)
    | (.timeout, w) => (.continued, m, w)
    | (.error, w) => (.continued, { m with phase := .requireChallenge }, w)
    | (.unfinished, w) => (.unfinished, m, w)

/-- Goes on with the time proof: to the submission if there is a proof of space. -/
def processVdf (m : Miner) : Miner :=
  { m with phase := if m.pos.isSome then .submitProofs else .findPos }

/-- What is submitted, if everything is there. -/
def pack? (ctx : Context) (m : Miner) : Option ProofPack := do
  let pos ← m.pos
  let vdf ← m.vdf
  let farmerKey ← m.farmerKey
  return ⟨m.queried.prevBlockHash, m.queried.prevBlockHeight, pos, vdf, farmerKey, ctx.rewardTo⟩

/-- Submits the proofs. Whatever comes of it, the round is over; only a success is remembered. -/
def submitProofs (ctx : Context) (co : Collaborators W) (m : Miner) (w : W) : Miner × W :=
  let ended := { m with phase := .requireChallenge }
  match m.pack? ctx with
  | none => (ended, w)
  | some pack =>
    match pack.validate with
    | .error _ => (ended, w)
    | .ok () =>
      match co.submitProof pack w with
      | (.error _, w) => (ended, w)
      | (.ok (), w) => ({ ended with submitted := m.queried.challenge :: m.submitted }, w)

/-- Does what the phase of the miner asks for. The wait for a time proof takes at most `fuel`
looks. -/
def step (ctx : Context) (co : Collaborators W) (fuel : Nat) (m : Miner) (w : W) :
    Outcome × Miner × W :=
  match m.phase with
  | .requireChallenge => m.requireChallenge ctx co w
  | .findPos => m.findPos ctx co w
  | .waitVdf => m.waitVdf ctx co fuel w
  | .processVdf => (.continued, m.processVdf, w)
  | .submitProofs => (.continued, m.submitProofs ctx co w)

/-- What follows a failure: the credentials are read again if the node could not be reached, and
some time passes. -/
def recover (ctx : Context) (co : Collaborators W) (f : Failure) (w : W) : W :=
  let w :=
    match f with
    | .net _ => (co.reloadCookie w).2
    | _ => w
  co.sleep ctx.timings.errorBackoff w

/-- Mines until the miner is stopped or has to end, in at most `steps` steps. -/
def run (ctx : Context) (co : Collaborators W) (fuel : Nat) :
    (steps : Nat) → Miner → W → Outcome × Miner × W
  | 0, m, w => (.unfinished, m, w)
  | steps + 1, m, w =>
    if !co.running w then (.exit .stopped, m, w)
    else
      match m.step ctx co fuel w with
      | (.continued, m, w) => run ctx co fuel steps m w
      | (.failed f, m, w) => run ctx co fuel steps m (recover ctx co f w)
      | result => result

end Miner

end PlotMiner.Mining
