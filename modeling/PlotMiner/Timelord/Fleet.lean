import PlotMiner.Timelord.Link
import PlotMiner.Timelord.ProofCache

/-!
# A fleet of timelords

A fleet keeps one link to each of its endpoints. When the current link to an endpoint fails, the
endpoint waits for a while and then gets a new link. The active request is sent over every link that
is there when it is broadcast, and over every link that is connected later, until it is cleared.
Proofs are collected in a cache. A fleet that has been shut down makes no new links for failed ones.
-/

namespace PlotMiner.Timelord

/-- Times are counted in milliseconds. -/
structure FleetTimings where
  reconnectDelay : Nat
  link : LinkTimings
deriving DecidableEq

instance : Inhabited FleetTimings := ⟨⟨3000, default⟩⟩

/-- How long a request stays unanswered before it is sent again, in seconds. -/
def resendSeconds : UInt64 := 22

def milliseconds (seconds : UInt64) : Nat := seconds.toNat * 1000

structure FleetEntry where
  link : Link
  reconnecting : Bool

structure Reconnect where
  endpoint : Endpoint
  due : Nat
deriving DecidableEq

structure Fleet where
  entries : List (Endpoint × FleetEntry)
  /-- The request that every link is to work on. -/
  active : Option Calc
  pending : List Reconnect
  shuttingDown : Bool
  nextId : Nat
  cache : ProofCache

namespace Fleet

def empty : Fleet := ⟨[], none, [], false, 0, ProofCache.empty⟩

instance : Inhabited Fleet := ⟨empty⟩

def find? (f : Fleet) (e : Endpoint) : Option FleetEntry := f.entries.lookup e

def size (f : Fleet) : Nat := f.entries.length

/-- Replaces what is known about an endpoint, or adds it. -/
def putEntry (e : Endpoint) (entry : FleetEntry) :
    List (Endpoint × FleetEntry) → List (Endpoint × FleetEntry)
  | [] => [(e, entry)]
  | (k, old) :: rest =>
    if k = e then (e, entry) :: rest else (k, old) :: putEntry e entry rest

def put (f : Fleet) (e : Endpoint) (entry : FleetEntry) : Fleet :=
  { f with entries := putEntry e entry f.entries }

/-- Gives an endpoint a new link, which starts to connect. -/
def connect (f : Fleet) (e : Endpoint) : Fleet :=
  { f.put e ⟨(Link.new f.nextId e).start, false⟩ with nextId := f.nextId + 1 }

/-- Connects an endpoint, unless the fleet has it already. -/
def add (f : Fleet) (e : Endpoint) : Fleet :=
  match f.find? e with
  | some _ => f
  | none => f.connect e

/-- Connects the endpoints that are written in a list; what is no endpoint is skipped. -/
def startAll (f : Fleet) (texts : List String) (defaultPort : UInt16) : Fleet :=
  texts.foldl (fun f text =>
    match Endpoint.parse text defaultPort with
    | .ok e => f.add e
    | .error _ => f) f

/-- Makes a request the active one and sends it over every link that is not about to be replaced. -/
def broadcast (f : Fleet) (request : Calc) (interval : UInt64) : Fleet :=
  { f with
    active := some request
    entries := f.entries.map fun (e, entry) =>
      if entry.reconnecting then (e, entry)
      else (e, { entry with link := entry.link.send request (milliseconds interval) }) }

/-- Forgets the active request. -/
def clearActive (f : Fleet) : Fleet := { f with active := none }

/-- Ends every link and makes no new ones for those that fail. -/
def shutdown (f : Fleet) : Fleet :=
  { f with
    shuttingDown := true
    entries := f.entries.map fun (e, entry) => (e, { entry with link := entry.link.exit }) }

/-- The link with a number has been connected. If it is current, it gets the active request. -/
def onConnected (f : Fleet) (linkId : Nat) (e : Endpoint) : Fleet :=
  match f.find? e, f.active with
  | some entry, some request =>
    if entry.link.id = linkId then
      f.put e { entry with link := entry.link.send request (milliseconds resendSeconds) }
    else f
  | _, _ => f

/-- A proof has been received. -/
def onProof (f : Fleet) (challenge : Bytes32) (d : ProofDetail) : Fleet :=
  { f with cache := f.cache.record challenge d }

/-- The link with a number has failed. If it is current and the first to say so, it is ended and the
endpoint waits for a new one. -/
def onError (t : FleetTimings) (now : Nat) (f : Fleet) (linkId : Nat) (e : Endpoint) : Fleet :=
  match f.find? e with
  | none => f
  | some entry =>
    if entry.link.id = linkId ∧ entry.reconnecting = false then
      let f := f.put e ⟨entry.link.exit, true⟩
      if f.shuttingDown then f
      else { f with pending := f.pending ++ [⟨e, now + t.reconnectDelay⟩] }
    else f

/-- An endpoint has waited long enough for a new link. -/
def onReconnect (f : Fleet) (e : Endpoint) : Fleet :=
  match f.pending.find? (·.endpoint = e) with
  | none => f
  | some r =>
    let f := { f with pending := f.pending.erase r }
    if f.shuttingDown then f else f.connect e

/-- What the fleet does about a notice of the current link to an endpoint. -/
def onNotice (t : FleetTimings) (now : Nat) (linkId : Nat) (e : Endpoint) (f : Fleet) :
    Notice → Fleet
  | .connected => f.onConnected linkId e
  | .proof challenge d => f.onProof challenge d
  | .failed _ _ => f.onError t now linkId e
  | .wrote _ => f

/-- An event happens to the current link to an endpoint. -/
def onLink (t : FleetTimings) (now : Nat) (f : Fleet) (e : Endpoint) (event : LinkEvent) :
    Fleet × List Notice :=
  match f.find? e with
  | none => (f, [])
  | some entry =>
    let (link, notices) := entry.link.handle t.link now event
    let f := f.put e { entry with link := link }
    (notices.foldl (onNotice t now link.id e) f, notices)

end Fleet

inductive FleetEvent where
  | startAll (texts : List String) (defaultPort : UInt16)
  | broadcast (request : Calc) (interval : UInt64)
  | clearActive
  | shutdown
  /-- A link, current or not, is said to have been connected. -/
  | reportConnected (linkId : Nat) (endpoint : Endpoint)
  | reportError (linkId : Nat) (endpoint : Endpoint)
  | reportProof (challenge : Bytes32) (detail : ProofDetail)
  | reconnect (endpoint : Endpoint)
  | link (endpoint : Endpoint) (event : LinkEvent)

/-- The fleet after an event at the time `now`, and the notices of the link that it happened to. -/
def Fleet.handle (t : FleetTimings) (now : Nat) (f : Fleet) : FleetEvent → Fleet × List Notice
  | .startAll texts defaultPort => (f.startAll texts defaultPort, [])
  | .broadcast request interval => (f.broadcast request interval, [])
  | .clearActive => (f.clearActive, [])
  | .shutdown => (f.shutdown, [])
  | .reportConnected linkId e => (f.onConnected linkId e, [])
  | .reportError linkId e => (f.onError t now linkId e, [])
  | .reportProof challenge d => (f.onProof challenge d, [])
  | .reconnect e => (f.onReconnect e, [])
  | .link e event => f.onLink t now e event

end PlotMiner.Timelord
