import PlotMiner.Timelord.Fleet

/-!
# What happens next

Between two doings from outside, a link has things to do on its own: commands and messages wait for
its session, timers run out, and a connection that is being made succeeds or fails as the network
has it. Taking the first of them until there is none left brings a link, or all links of a fleet, to
rest at a point in time.
-/

namespace PlotMiner.Timelord

/-- Why connecting to an endpoint fails, if it does. -/
abbrev Network := Endpoint → Option ConnectError

/-- Whether a host is written as an address, or is known without asking anybody. -/
def isAddress (host : String) : Bool :=
  let cs := host.toList
  host = "localhost" || cs.contains ':' ||
    (cs.all (fun c => c = '.' || c.isDigit) && cs.count '.' = 3)

/-- A network that leads nowhere: no name can be looked up, and no address can be reached. -/
def Network.down : Network := fun e =>
  if isAddress e.host then some (.unreachable e.render "Network is unreachable")
  else some (.unresolved e "")

/-- The timer of a session that has run out, if one has. -/
def Session.due? (s : Session) (now : Nat) : Option LinkEvent :=
  if s.pongDue.any (· ≤ now) then some .pongDue
  else if s.pingDue ≤ now then some .pingDue
  else if s.resend.any (·.due ≤ now) then some .resendDue
  else none

/-- What a link does next on its own. -/
def Link.next? (net : Network) (now : Nat) (l : Link) : Option LinkEvent :=
  match l.stage with
  | .idle | .ended => none
  | .connecting _ =>
    if l.mailbox.isEmpty then
      match net l.endpoint with
      | none => some .connected
      | some e => some (.refused e)
    else some .takeCommand
  | .announcing _ => some .announced
  | .opened s =>
    if l.mailbox.isEmpty then
      if s.inbox.isEmpty then s.due? now else some .takeMessage
    else some .takeCommand

/-- Brings a link to rest, in at most `fuel` events. -/
def Link.settle (t : LinkTimings) (net : Network) (now : Nat) :
    (fuel : Nat) → Link → Link × List Notice
  | 0, l => (l, [])
  | fuel + 1, l =>
    match l.next? net now with
    | none => (l, [])
    | some event =>
      let (l, first) := l.handle t now event
      let (l, later) := settle t net now fuel l
      (l, first ++ later)

/-- What a fleet does next on its own. -/
def Fleet.next? (net : Network) (now : Nat) (f : Fleet) : Option FleetEvent :=
  let events := f.entries.filterMap fun (e, entry) =>
    (entry.link.next? net now).map (FleetEvent.link e)
  match events with
  | event :: _ => some event
  | [] => (f.pending.find? (·.due ≤ now)).map fun r => .reconnect r.endpoint

/-- Brings a fleet to rest, in at most `fuel` events. Each frame is listed with the endpoint that it
was sent to. -/
def Fleet.settle (t : FleetTimings) (net : Network) (now : Nat) :
    (fuel : Nat) → Fleet → Fleet × List (Endpoint × List UInt8)
  | 0, f => (f, [])
  | fuel + 1, f =>
    match f.next? net now with
    | none => (f, [])
    | some event =>
      let (f, notices) := f.handle t now event
      let frames :=
        match event with
        | .link e _ => (notices.filterMap Notice.frame?).map (e, ·)
        | _ => []
      let (f, later) := settle t net now fuel f
      (f, frames ++ later)

structure FleetRun where
  fleet : Fleet
  now : Nat
  /-- The links that have been current at rest, by their endpoints and numbers, the earliest
  first. -/
  seen : List (Endpoint × Nat)
  frames : List (Endpoint × List UInt8)

namespace FleetRun

def start : FleetRun := ⟨.empty, 0, [], []⟩

/-- The numbers of the links that an endpoint has had, the earliest first. -/
def linksTo (r : FleetRun) (e : Endpoint) : List Nat := (r.seen.filter (·.1 = e)).map (·.2)

def framesTo (r : FleetRun) (e : Endpoint) : List (List UInt8) :=
  (r.frames.filter (·.1 = e)).map (·.2)

/-- Brings the fleet to rest, in at most `fuel` events. -/
def settle (t : FleetTimings) (net : Network) (fuel : Nat) (r : FleetRun) : FleetRun :=
  let (fleet, frames) := r.fleet.settle t net r.now fuel
  let current := fleet.entries.map fun (e, entry) => (e, entry.link.id)
  { r with
    fleet := fleet
    seen := r.seen ++ current.filter fun link => !r.seen.contains link
    frames := r.frames ++ frames }

/-- Lets something happen. -/
def act (t : FleetTimings) (event : FleetEvent) (r : FleetRun) : FleetRun :=
  { r with fleet := (r.fleet.handle t r.now event).1 }

/-- Lets time pass up to a moment. Every endpoint gets its new link when it is due, in at most
`rounds` rounds. -/
def pass (t : FleetTimings) (net : Network) (fuel : Nat) (later : Nat) :
    (rounds : Nat) → FleetRun → FleetRun
  | 0, r => { r with now := later }
  | rounds + 1, r =>
    match (r.fleet.pending.map (·.due)).filter (· ≤ later) with
    | [] => { r with now := later }
    | due :: dues =>
      let r := { r with now := max r.now (dues.foldl min due) }
      pass t net fuel later rounds (r.settle t net fuel)

end FleetRun

end PlotMiner.Timelord
