import PlotMiner.Timelord.Endpoint
import PlotMiner.Timelord.Frame

/-!
# A link to a timelord

A link is one attempt to talk to a timelord: it connects at most once, and once it is closed it
stays closed. Its owner starts it, asks it to send requests and ends it. Everything else happens
when it happens: the connection is made or fails, bytes arrive, timers run out, and the session
takes the commands and messages that wait for it. Each of these is an event, and what the link does
about it is a function of its state alone. What others notice of it are its notices.

While the connection is being made, the session sets commands aside and handles them before any
later one. Once it is made, the owner is told before the session goes on. A request is sent at once;
one with an interval is sent again and again until another takes its place.
-/

namespace PlotMiner.Timelord

inductive LinkState where
  | ready
  | connecting
  | connected
  | closed
deriving DecidableEq, Inhabited

def LinkState.name : LinkState → String
  | ready => "Ready"
  | connecting => "Connecting"
  | connected => "Connected"
  | closed => "Closed"

inductive LinkErrorKind where
  | connection
  | read
  | write
deriving DecidableEq, Inhabited

def LinkErrorKind.name : LinkErrorKind → String
  | connection => "CONN"
  | read => "READ"
  | write => "WRITE"

inductive ConnectError where
  | unresolved (endpoint : Endpoint) (reason : String)
  | noAddress (endpoint : Endpoint)
  | unreachable (address reason : String)
deriving DecidableEq

def ConnectError.message : ConnectError → String
  | unresolved e reason => s!"failed to resolve {e.render}: {reason}"
  | noAddress e => s!"no address resolved for {e.render}"
  | unreachable address reason => s!"failed to connect {address}: {reason}"

/-- Times are counted in milliseconds. -/
structure LinkTimings where
  pingInterval : Nat
  /-- How long the oldest unanswered ping may wait for its answer. -/
  pongTimeout : Nat
deriving DecidableEq

instance : Inhabited LinkTimings := ⟨⟨60000, 10000⟩⟩

inductive Command where
  /-- Send a request, and again whenever `interval` has passed unless it is zero. -/
  | send (request : Calc) (interval : Nat)
  | exit
deriving DecidableEq

structure Resend where
  request : Calc
  interval : Nat
  due : Nat
deriving DecidableEq

structure Session where
  reader : Reader
  /-- What the reader made of the bytes, and the session has not yet handled. -/
  inbox : List Incoming
  pingDue : Nat
  pongDue : Option Nat
  resend : Option Resend

/-- How far the session of a link has come. -/
inductive Stage where
  | idle
  /-- The connection is being made; these commands have been set aside. -/
  | connecting (queued : List Command)
  /-- The connection is made, and the owner is being told. -/
  | announcing (queued : List Command)
  | opened (s : Session)
  | ended

structure Link where
  id : Nat
  endpoint : Endpoint
  state : LinkState
  mailbox : List Command
  stage : Stage

inductive Notice where
  | connected
  | proof (challenge : Bytes32) (detail : ProofDetail)
  | failed (kind : LinkErrorKind) (message : String)
  | wrote (frame : List UInt8)

namespace Notice

def frame? : Notice → Option (List UInt8)
  | wrote frame => some frame
  | _ => none

def proof? : Notice → Option (Bytes32 × ProofDetail)
  | proof challenge detail => some (challenge, detail)
  | _ => none

def error? : Notice → Option (LinkErrorKind × String)
  | failed kind message => some (kind, message)
  | _ => none

def isConnected : Notice → Bool
  | connected => true
  | _ => false

end Notice

/-- What happens to a link without its owner's doing. -/
inductive LinkEvent where
  | takeCommand
  | connected
  | refused (error : ConnectError)
  /-- The owner has been told that the connection is made. -/
  | announced
  | arrived (bytes : List UInt8)
  | hungUp
  | broken (reason : String)
  | takeMessage
  | pingDue
  | pongDue
  | resendDue
  | writeFailed (reason : String)

/-- The frame of a request. -/
def requestFrame (request : Calc) : List UInt8 :=
  match (Message.calcRequest request).toFrame with
  | .ok frame => frame
  | .error _ => []

def pingFrame : List UInt8 :=
  match Message.ping.toFrame with
  | .ok frame => frame
  | .error _ => []

namespace Link

def new (id : Nat) (endpoint : Endpoint) : Link := ⟨id, endpoint, .ready, [], .idle⟩

/-- Starts the link. Only the first start has an effect. -/
def start (l : Link) : Link :=
  match l.stage with
  | .idle => { l with state := .connecting, stage := .connecting [] }
  | _ => l

/-- Asks for a request to be sent. A closed link takes none. -/
def send (l : Link) (request : Calc) (interval : Nat) : Link :=
  if l.state = .closed then l
  else { l with mailbox := l.mailbox ++ [.send request interval] }

/-- Ends the link, if it has been started. -/
def exit (l : Link) : Link :=
  match l.state with
  | .ready | .closed => l
  | .connecting | .connected => { l with state := .closed, mailbox := l.mailbox ++ [.exit] }

def close (l : Link) : Link := { l with state := .closed, stage := .ended }

def fail (l : Link) (kind : LinkErrorKind) (message : String) : Link × List Notice :=
  (l.close, [.failed kind message])

end Link

namespace Session

def new (t : LinkTimings) (now : Nat) : Session :=
  ⟨Reader.start, [], now + t.pingInterval, none, none⟩

/-- Sends a request. With an interval it takes the place of the one that is sent again. -/
def apply (s : Session) (now : Nat) (request : Calc) (interval : Nat) : Session × List Notice :=
  (if interval = 0 then s else { s with resend := some ⟨request, interval, now + interval⟩ },
    [.wrote (requestFrame request)])

/-- Handles the commands that were set aside, in order. -/
def applyAll (s : Session) (now : Nat) : List Command → Session × List Notice
  | [] => (s, [])
  | .send request interval :: rest =>
    let (s, first) := s.apply now request interval
    let (s, later) := applyAll s now rest
    (s, first ++ later)
  | .exit :: rest => applyAll s now rest

/-- What a message is to the owner of the link: a proof, or nothing. -/
def noticesOf (m : Message) : List Notice :=
  match m.delivery? with
  | some (challenge, detail) => [.proof challenge detail]
  | none => []

def receive (s : Session) (m : Message) : Session × List Notice :=
  (match m with
    | .pong => { s with pongDue := none }
    | _ => s,
    noticesOf m)

/-- Adds to what waits to be handled. -/
def push (s : Session) (r : Reader) (new : List Incoming) : Session :=
  { s with reader := r, inbox := s.inbox ++ new }

/-- Sends a ping. The deadline runs from the oldest one that is unanswered. -/
def ping (s : Session) (t : LinkTimings) (now : Nat) : Session × List Notice :=
  ({ s with
      pingDue := now + t.pingInterval
      pongDue := some (s.pongDue.getD (now + t.pongTimeout)) },
    [.wrote pingFrame])

end Session

namespace Link

/-- What a link that is being connected does about an event. -/
def onConnecting (l : Link) (queued : List Command) : LinkEvent → Link × List Notice
  | .connected =>
    if l.state = .closed then (l.close, [])
    else ({ l with state := .connected, stage := .announcing queued }, [])
  | .refused e => l.fail .connection e.message
  | .takeCommand =>
    match l.mailbox with
    | [] => (l, [])
    | .exit :: rest => ({ l.close with mailbox := rest }, [])
    | c :: rest => ({ l with mailbox := rest, stage := .connecting (queued ++ [c]) }, [])
  | _ => (l, [])

def withSession (l : Link) (r : Session × List Notice) : Link × List Notice :=
  ({ l with stage := .opened r.1 }, r.2)

/-- What a link with an open connection does about an event. -/
def onOpened (t : LinkTimings) (now : Nat) (l : Link) (s : Session) : LinkEvent → Link × List Notice
  | .takeCommand =>
    match l.mailbox with
    | [] => (l, [])
    | .exit :: rest => ({ l.close with mailbox := rest }, [])
    | .send request interval :: rest =>
      { l with mailbox := rest }.withSession (s.apply now request interval)
  | .arrived bytes =>
    let (r, new) := s.reader.feed bytes
    l.withSession (s.push r new, [])
  | .hungUp => l.withSession (s.push ⟨[], true⟩ s.reader.finish, [])
  | .broken reason =>
    l.withSession
      (s.push ⟨[], true⟩ (if s.reader.stopped then [] else [.error (.broken reason)]), [])
  | .takeMessage =>
    match s.inbox with
    | [] => (l, [])
    | .ok m :: rest => l.withSession ({ s with inbox := rest }.receive m)
    | .error e :: _ => l.fail .read e.text
  | .pingDue => l.withSession (s.ping t now)
  | .pongDue =>
    match s.pongDue with
    | some _ => l.fail .read "PING/PONG timeout"
    | none => (l, [])
  | .resendDue =>
    match s.resend with
    | some r =>
      l.withSession ({ s with resend := some { r with due := now + r.interval } },
        [.wrote (requestFrame r.request)])
    | none => (l, [])
  | .writeFailed reason => l.fail .write reason
  | _ => (l, [])

/-- What a link does about an event. An event that does not fit its stage changes nothing. -/
def handle (t : LinkTimings) (now : Nat) (l : Link) (e : LinkEvent) : Link × List Notice :=
  match l.stage with
  | .idle => (l, [])
  | .connecting queued => l.onConnecting queued e
  | .announcing queued =>
    match e with
    | .announced =>
      let (s, new) := (Session.new t now).applyAll now queued
      ({ l with stage := .opened s }, .connected :: new)
    | _ => (l, [])
  | .opened s => l.onOpened t now s e
  | .ended => (l, [])

end Link

end PlotMiner.Timelord
