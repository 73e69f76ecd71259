import PlotMiner.Proofs.Timelord.Idleness
import PlotMiner.Proofs.Timelord.Lifecycle

/-!
# Calls in order

The calls on a link to send a request wait in up to three places: in the mailbox, among the commands
that were set aside while the connection was being made, and again in the mailbox once the session
is open. On the way from one to the next none is lost, doubled or overtaken (`Link.Keeps`). So the
frames that a session queues are those of the calls that were made first, and the timer repeats the
last of these that has an interval.
-/

namespace PlotMiner.Timelord

structure Call where
  request : Calc
  interval : Nat
deriving DecidableEq

def Call.frame (c : Call) : List UInt8 := requestFrame c.request

def Command.call? : Command → Option Call
  | send request interval => some ⟨request, interval⟩
  | exit => none

def calls (cs : List Command) : List Call := cs.filterMap Command.call?

@[simp]
theorem calls_nil : calls [] = [] := rfl

@[simp]
theorem calls_send (request : Calc) (interval : Nat) (rest : List Command) :
    calls (.send request interval :: rest) = ⟨request, interval⟩ :: calls rest := rfl

@[simp]
theorem calls_exit (rest : List Command) : calls (.exit :: rest) = calls rest := rfl

@[simp]
theorem calls_append (cs rest : List Command) : calls (cs ++ rest) = calls cs ++ calls rest :=
  List.filterMap_append

theorem map_request_calls (cs : List Command) : (calls cs).map Call.request = requests cs := by
  rw [calls, requests, List.map_filterMap]
  congr 1
  funext c
  cases c <;> rfl

/-- Of some calls that were applied, the one that is repeated: the last that has an interval. -/
def repeated (applied : List Call) : Option Call := (applied.filter (·.interval ≠ 0)).getLast?

theorem repeated_concat (applied : List Call) (c : Call) :
    repeated (applied ++ [c]) = if c.interval = 0 then repeated applied else some c := by
  unfold repeated
  split <;> simp_all

/-- The frame is a request. -/
def isCalc (frame : List UInt8) : Bool :=
  match Message.ofFrame frame with
  | .ok (.calcRequest _) => true
  | _ => false

/-- The frames of requests that are queued with some notices. -/
def calcFrames (ns : List Notice) : List (List UInt8) := (ns.filterMap Notice.frame?).filter isCalc

@[simp]
theorem calcFrames_nil : calcFrames [] = [] := rfl

@[simp]
theorem calcFrames_request (request : Calc) (ns : List Notice) :
    calcFrames (.wrote (requestFrame request) :: ns) = requestFrame request :: calcFrames ns := by
  have hknown : isCalc (requestFrame request) = true := by rw [isCalc, ofFrame_requestFrame]
  simp [calcFrames, Notice.frame?, hknown]

@[simp]
theorem calcFrames_ping (ns : List Notice) :
    calcFrames (.wrote pingFrame :: ns) = calcFrames ns := by
  have hother : isCalc pingFrame = false := by rw [isCalc, ofFrame_pingFrame]
  simp [calcFrames, Notice.frame?, hother]

@[simp]
theorem calcFrames_connected (ns : List Notice) :
    calcFrames (.connected :: ns) = calcFrames ns := rfl

@[simp]
theorem calcFrames_failed (kind : LinkErrorKind) (message : String) :
    calcFrames [.failed kind message] = [] := rfl

theorem calcFrames_noticesOf (m : Message) : calcFrames (Session.noticesOf m) = [] := by
  unfold Session.noticesOf
  split <;> rfl

namespace Session

variable {s : Session} {applied : List Call}

/-- The call that the timer of a session repeats. -/
def repeated (s : Session) : Option Call := s.resend.map fun r => ⟨r.request, r.interval⟩

theorem repeated_apply (h : s.repeated = Timelord.repeated applied) (now : Nat) (c : Call) :
    (s.apply now c.request c.interval).1.repeated = Timelord.repeated (applied ++ [c]) := by
  rw [repeated_concat, apply]
  split
  · exact h
  · rfl

theorem repeated_applyAll (h : s.repeated = Timelord.repeated applied) (now : Nat)
    (commands : List Command) :
    (s.applyAll now commands).1.repeated = Timelord.repeated (applied ++ calls commands) := by
  induction commands generalizing s applied with
  | nil => simpa [applyAll] using h
  | cons c rest ih =>
    cases c with
    | send request interval =>
      simpa [applyAll] using ih (repeated_apply h now ⟨request, interval⟩)
    | exit => exact ih h

theorem calcFrames_applyAll (s : Session) (now : Nat) (commands : List Command) :
    calcFrames (s.applyAll now commands).2 = (calls commands).map Call.frame := by
  rw [applyAll_snd, ← map_request_calls]
  induction calls commands with
  | nil => rfl
  | cons c rest ih =>
    rw [List.map_cons, List.map_cons, calcFrames_request, ih]
    rfl

theorem resend_applyAll (s : Session) (now : Nat) {commands : List Command}
    (hsingle : ∀ c ∈ calls commands, c.interval = 0) :
    (s.applyAll now commands).1.resend = s.resend := by
  induction commands generalizing s with
  | nil => rfl
  | cons c rest ih =>
    cases c with
    | send request interval =>
      rw [calls_send, List.forall_mem_cons] at hsingle
      obtain ⟨hnone : interval = 0, hlater⟩ := hsingle
      simpa [applyAll, apply, hnone] using ih s hlater
    | exit => exact ih s hsingle

theorem resend_receive (s : Session) (m : Message) : (s.receive m).1.resend = s.resend := by
  unfold receive
  split <;> rfl

end Session

namespace Stage

def setAside : Stage → List Command
  | connecting queued | announcing queued => queued
  | idle | opened _ | ended => []

/-- The timer that is running. -/
def resend? : Stage → Option Resend
  | opened s => s.resend
  | idle | connecting _ | announcing _ | ended => none

/-- What has become of the calls that were applied. -/
def Applied (applied : List Call) : Stage → Prop
  | idle | connecting _ | announcing _ => applied = []
  | opened s => s.repeated = repeated applied
  | ended => True

end Stage

def LinkStep.isResend : LinkStep → Bool
  | event _ .resendDue => true
  | _ => false

namespace Link

section

variable {α : Type} (t : LinkTimings)

/-- The calls that a link accepts in a step. -/
def accepts (l : Link) : LinkStep → List Call
  | .send request interval => if l.state = .closed then [] else [⟨request, interval⟩]
  | .start | .exit | .event _ _ => []

/-- The frames of requests that a link queues in a step, unless the timer has them queued. -/
def queues (l : Link) (s : LinkStep) : List (List UInt8) :=
  if s.isResend then [] else calcFrames (l.step t s).2

def record (what : Link → LinkStep → List α) (l : Link) : List LinkStep → List α
  | [] => []
  | s :: rest => what l s ++ record what (l.step t s).1 rest

theorem record_append (what : Link → LinkStep → List α) (l : Link) (steps more : List LinkStep) :
    l.record t what (steps ++ more) =
      l.record t what steps ++ (l.run t steps).1.record t what more := by
  induction steps generalizing l with
  | nil => rfl
  | cons s rest ih => simp only [List.cons_append, record, run, ih, List.append_assoc]

/-- The calls that a link accepts in some steps, in order. -/
def accepted (l : Link) (steps : List LinkStep) : List Call := l.record t accepts steps

/-- The frames of requests that a link queues in some steps, in order, but for the timer's. -/
def queued (l : Link) (steps : List LinkStep) : List (List UInt8) := l.record t (queues t) steps

/-- As many of the accepted calls, from the first one on, as frames of requests were queued. -/
def applied (l : Link) (steps : List LinkStep) : List Call :=
  (l.accepted t steps).take (l.queued t steps).length

end

/-- The calls that were accepted are, in order, those that were applied and those that wait. -/
structure Keeps (l : Link) (accepted applied : List Call) : Prop where
  begins : applied <+: accepted
  waits : l.stage ≠ .ended → accepted = applied ++ calls (l.stage.setAside ++ l.mailbox)
  applied : l.stage.Applied applied

variable {l : Link} {accepted applied : List Call}

theorem keeps_new (id : Nat) (endpoint : Endpoint) : (new id endpoint).Keeps [] [] :=
  ⟨List.prefix_refl _, fun _ => rfl, rfl⟩

namespace Keeps

theorem ended (h : l.Keeps accepted applied) {l' : Link} (hstage : l'.stage = .ended) :
    l'.Keeps accepted applied :=
  ⟨h.begins, fun hgoing => absurd hstage hgoing, hstage ▸ trivial⟩

theorem passOn (h : l.Keeps accepted applied) {l' : Link} (hgoing : l.stage ≠ .ended)
    (hunapplied : l'.stage.Applied [])
    (hidle : ∀ applied, l.stage.Applied applied → applied = [])
    (hpassed : calls (l'.stage.setAside ++ l'.mailbox) = calls (l.stage.setAside ++ l.mailbox)) :
    l'.Keeps accepted applied := by
  obtain rfl := hidle applied h.applied
  refine ⟨h.begins, fun _ => ?_, hunapplied⟩
  rw [hpassed]
  exact h.waits hgoing

/-- A session that goes on without taking a command keeps its calls, as long as the timer repeats
the same one. -/
theorem goOn (h : l.Keeps accepted applied) {s s' : Session} (hstage : l.stage = .opened s)
    (hrepeats : s'.repeated = s.repeated) :
    ({ l with stage := .opened s' } : Link).Keeps accepted applied := by
  obtain ⟨hbegins, hwaits, hdone⟩ := h
  rw [hstage] at hwaits hdone
  exact ⟨hbegins, fun _ => hwaits nofun, hrepeats.trans hdone⟩

end Keeps

/-- In a step a session applies the next few calls or none. It queues their frames and no other
requests, unless the timer runs out; and if it does not, and none of the calls has an interval, the
timer stays as it is. -/
structure Goes (l : Link) (s : LinkStep) (r : Link × List Notice)
    (accepted applied new : List Call) : Prop where
  keeps : r.1.Keeps accepted (applied ++ new)
  queues : (if s.isResend then [] else calcFrames r.2) = new.map Call.frame
  resend : s.isResend = false → ∀ session, r.1.stage = .opened session →
    (∀ c ∈ new, c.interval = 0) → session.resend = l.stage.resend?

theorem Goes.silent {s : LinkStep} {r : Link × List Notice} (h : r.1.Keeps accepted applied)
    (hsilent : calcFrames r.2 = [])
    (hresend : ∀ session, r.1.stage = .opened session → session.resend = l.stage.resend?) :
    Goes l s r accepted applied [] where
  keeps := by
    rw [List.append_nil]
    exact h
  queues := by simp [hsilent]
  resend _ session hstage _ := hresend session hstage

namespace Keeps

theorem handle (h : l.Keeps accepted applied) (t : LinkTimings) (now : Nat) (e : LinkEvent) :
    ∃ new, Goes l (.event now e) (l.handle t now e) accepted applied new := by
  have hway := l.handle_passage t now e
  generalize l.handle t now e = r at hway ⊢
  have hwaits := h.waits
  have hdone := h.applied
  -- only the opening of the session and a command that it takes apply calls
  cases hway with
  | unmoved =>
    refine ⟨[], Goes.silent h rfl ?_⟩
    intro s hstage
    rw [hstage, Stage.resend?]
  | exited | late | refused | failed =>
    refine ⟨[], Goes.silent (h.ended rfl) rfl ?_⟩
    rintro _ ⟨⟩
  | setAside hstage hmailbox =>
    refine ⟨[], Goes.silent (h.passOn ?_ rfl ?_ ?_) rfl ?_⟩
    · simp [hstage]
    · simp [hstage, Stage.Applied]
    · simp [hstage, Stage.setAside, hmailbox]
    · rintro _ ⟨⟩
  | connected hstage =>
    refine ⟨[], Goes.silent (h.passOn ?_ rfl ?_ ?_) rfl ?_⟩
    · simp [hstage]
    · simp [hstage, Stage.Applied]
    · simp [hstage, Stage.setAside]
    · rintro _ ⟨⟩
  | @announced queued hstage =>
    rw [hstage] at hwaits hdone
    obtain rfl : applied = [] := hdone
    have hmade : accepted = calls queued ++ calls l.mailbox := by
      simpa [Stage.setAside] using hwaits (by simp)
    refine ⟨calls queued, ⟨?_, fun _ => ?_, ?_⟩, ?_, ?_⟩
    · rw [hmade]
      exact List.prefix_append ..
    · simpa [Stage.setAside] using hmade
    · have hnone : (Session.new t now).repeated = repeated [] := rfl
      exact Session.repeated_applyAll hnone now queued
    · exact Session.calcFrames_applyAll _ now queued
    · rintro _ _ ⟨⟩ hsingle
      rw [hstage]
      exact Session.resend_applyAll _ now hsingle
  | @applied s request interval rest hstage hmailbox =>
    rw [hstage] at hwaits hdone
    have hmade : accepted = applied ++ [⟨request, interval⟩] ++ calls rest := by
      simpa [Stage.setAside, hmailbox] using hwaits (by simp)
    refine ⟨[⟨request, interval⟩], ⟨?_, fun _ => ?_, ?_⟩, ?_, ?_⟩
    · rw [hmade]
      exact List.prefix_append ..
    · simpa [Stage.setAside, withSession] using hmade
    · exact Session.repeated_apply hdone now ⟨request, interval⟩
    · exact calcFrames_request request []
    · rintro _ _ ⟨⟩ hsingle
      have hnone : interval = 0 := by simpa using hsingle
      rw [hstage]
      simp [Session.apply, hnone, Stage.resend?]
  | read hstage =>
    refine ⟨[], Goes.silent (h.goOn hstage rfl) rfl ?_⟩
    rintro _ ⟨⟩
    rw [hstage]
    rfl
  | @received s m rest hstage =>
    have hresend := Session.resend_receive { s with inbox := rest } m
    refine ⟨[], Goes.silent (h.goOn hstage ?_) (calcFrames_noticesOf m) ?_⟩
    · rw [Session.repeated, hresend]
      rfl
    · rintro _ ⟨⟩
      rw [hstage]
      exact hresend
  | @pinged s hstage =>
    refine ⟨[], Goes.silent (h.goOn hstage rfl) (calcFrames_ping []) ?_⟩
    rintro _ ⟨⟩
    rw [hstage]
    rfl
  | resent hstage hresend =>
    refine ⟨[], ?_, rfl, ?_⟩
    · rw [List.append_nil]
      exact h.goOn hstage (by simp [Session.repeated, hresend])
    · rintro ⟨⟩

theorem step (h : l.Keeps accepted applied) (t : LinkTimings) (s : LinkStep) :
    ∃ new, Goes l s (l.step t s) (accepted ++ l.accepts s) applied new := by
  cases s with
  | start =>
    refine ⟨[], .silent ?_ rfl ?_⟩
    · rw [accepts, List.append_nil, Link.step, Link.start]
      split
      case h_1 hidle =>
        refine h.passOn ?_ rfl ?_ ?_
        · simp [hidle]
        · simp [hidle, Stage.Applied]
        · simp [hidle, Stage.setAside]
      case h_2 => exact h
    · intro session hstage
      rw [Link.step, Link.start] at hstage
      split at hstage
      · cases hstage
      · rw [hstage, Stage.resend?]
  | send request interval =>
    refine ⟨[], .silent ?_ rfl ?_⟩
    · rw [accepts, Link.step, Link.send]
      split
      case isTrue => simpa using h
      case isFalse =>
        refine ⟨h.begins.trans (List.prefix_append ..), fun hgoing => ?_, h.applied⟩
        rw [h.waits hgoing]
        simp
    · intro session hstage
      rw [Link.step, send_stage] at hstage
      rw [hstage, Stage.resend?]
  | exit =>
    refine ⟨[], .silent ?_ rfl ?_⟩
    · rw [accepts, List.append_nil, Link.step, Link.exit]
      split
      case h_1 | h_2 => exact h
      all_goals exact ⟨h.begins, fun hgoing => by simp [h.waits hgoing], h.applied⟩
    · intro session hstage
      rw [Link.step, exit_stage] at hstage
      rw [hstage, Stage.resend?]
  | event now e =>
    rw [accepts, List.append_nil]
    exact h.handle t now e

theorem run (h : l.Keeps accepted applied) (t : LinkTimings) (steps : List LinkStep) :
    ∃ new, (l.run t steps).1.Keeps (accepted ++ l.accepted t steps) (applied ++ new) ∧
      l.queued t steps = new.map Call.frame := by
  induction steps generalizing l accepted applied with
  | nil => exact ⟨[], by simpa [Link.run, Link.accepted, record] using h, rfl⟩
  | cons s rest ih =>
    obtain ⟨first, hgoes⟩ := h.step t s
    obtain ⟨later, hkeeps, hqueued⟩ := ih hgoes.keeps
    refine ⟨first ++ later, ?_, ?_⟩
    · simpa [Link.run, Link.accepted, record] using hkeeps
    · rw [List.map_append, ← hgoes.queues, ← hqueued]
      rfl

end Keeps

variable (t : LinkTimings) (id : Nat) (endpoint : Endpoint) (steps : List LinkStep)

/-- What has been applied is what frames were queued for. -/
theorem Keeps.applied_eq {done : List Call}
    (hbegins : done <+: (new id endpoint).accepted t steps)
    (hqueued : (new id endpoint).queued t steps = done.map Call.frame) :
    (new id endpoint).applied t steps = done := by
  rw [Link.applied, hqueued, List.length_map]
  exact (List.prefix_iff_eq_take.1 hbegins).symm

theorem life_keeps :
    (life t id endpoint steps).1.Keeps ((new id endpoint).accepted t steps)
        ((new id endpoint).applied t steps) ∧
      (new id endpoint).queued t steps = ((new id endpoint).applied t steps).map Call.frame := by
  obtain ⟨done, hkeeps, hqueued⟩ := (keeps_new id endpoint).run t steps
  rw [List.nil_append, List.nil_append] at hkeeps
  rw [Keeps.applied_eq t id endpoint steps hkeeps.begins hqueued]
  exact ⟨hkeeps, hqueued⟩

theorem life_goes (s : LinkStep) :
    ∃ further, (new id endpoint).applied t (steps ++ [s]) =
        (new id endpoint).applied t steps ++ further ∧
      Goes (life t id endpoint steps).1 s ((life t id endpoint steps).1.step t s)
        ((new id endpoint).accepted t (steps ++ [s])) ((new id endpoint).applied t steps)
        further := by
  obtain ⟨hkeeps, hqueued⟩ := life_keeps t id endpoint steps
  obtain ⟨further, hgoes⟩ := hkeeps.step t s
  have haccepts : (new id endpoint).accepted t (steps ++ [s]) =
      (new id endpoint).accepted t steps ++ (life t id endpoint steps).1.accepts s := by
    simp [accepted, record_append, record, life]
  rw [← haccepts] at hgoes
  refine ⟨further, Keeps.applied_eq t id endpoint (steps ++ [s]) hgoes.keeps.begins ?_, hgoes⟩
  rw [List.map_append, ← hqueued, ← hgoes.queues, Link.queued, record_append]
  simp [record, queues, Link.queued, life]

/-- The timer of a session has the last call that was applied with an interval, and when it runs out
the frame of this call is queued again. -/
theorem Keeps.handle_resendDue {l : Link} {accepted applied : List Call}
    (h : l.Keeps accepted applied) {s : Session} (hstage : l.stage = .opened s) (now : Nat) :
    (l.handle t now .resendDue).2 = (repeated applied).toList.map fun c => .wrote c.frame := by
  have hsame : s.repeated = repeated applied := by simpa [hstage, Stage.Applied] using h.applied
  rw [← hsame, Session.repeated]
  cases hresend : s.resend <;>
    simp [Link.handle, hstage, onOpened, hresend, withSession, Call.frame]

theorem handle_resendDue_of_not_opened {l : Link} (hunopened : ∀ s, l.stage ≠ .opened s)
    (now : Nat) : (l.handle t now .resendDue).2 = [] := by
  cases hstage : l.stage with
  | opened s => exact absurd hstage (hunopened s)
  | _ => simp [Link.handle, onConnecting, hstage]

/-- Whatever order calls, the making of the connection and the events of the session come in: the
frames of requests that are queued, without those of the timer, are those of the calls that were
accepted first, in their order. While the session goes on, the other accepted calls still wait, each
once and in order, at first those that were set aside while the connection was being made. When the
timer runs out, the frame of the last applied call with an interval is queued again, if there is
one; and a step that applies no call with an interval leaves the timer as it was. -/
theorem calls_in_order (t : LinkTimings) (id : Nat) (endpoint : Endpoint) (steps : List LinkStep) :
    let l := (life t id endpoint steps).1
    let link := new id endpoint
    link.queued t steps = (link.applied t steps).map Call.frame ∧
    link.applied t steps <+: link.accepted t steps ∧
    (l.stage ≠ .ended →
      link.accepted t steps = link.applied t steps ++ calls (l.stage.setAside ++ l.mailbox)) ∧
    (∀ now s, l.stage = .opened s → (l.handle t now .resendDue).2 =
      (repeated (link.applied t steps)).toList.map fun c => .wrote c.frame) ∧
    (∀ now, (∀ s, l.stage ≠ .opened s) → (l.handle t now .resendDue).2 = []) ∧
    ∀ step : LinkStep, step.isResend = false →
      (∀ c ∈ (link.applied t (steps ++ [step])).drop (link.applied t steps).length,
        c.interval = 0) →
      ∀ s, (life t id endpoint (steps ++ [step])).1.stage = .opened s →
        s.resend = l.stage.resend? := by
  intro l link
  obtain ⟨hkeeps, hqueued⟩ := life_keeps t id endpoint steps
  refine ⟨hqueued, hkeeps.begins, hkeeps.waits, ?_, ?_, ?_⟩
  · intro now s hstage
    exact hkeeps.handle_resendDue t hstage now
  · intro now hunopened
    exact handle_resendDue_of_not_opened t hunopened now
  · intro step hother hsingle s hstage
    obtain ⟨further, happlied, hgoes⟩ := life_goes t id endpoint steps step
    rw [happlied, List.drop_left] at hsingle
    rw [life_concat] at hstage
    exact hgoes.resend hother s hstage hsingle

/-- A call is set aside while the connection is being made, another one waits until it is made, and
a third one comes when the session is open. -/
def threeCalls (first second third : Calc) : List LinkStep :=
  [.start, .send first 9, .event 0 .takeCommand, .send second 8, .event 1 .connected,
    .event 1 .announced, .send third 0, .event 2 .takeCommand, .event 3 .takeCommand]

/-- The three calls are queued in order, and the timer has the second one, which is the last with an
interval. -/
theorem calls_in_order_three_calls :
    let second : Calc := { (default : Calc) with iters := 2 }
    let third : Calc := { (default : Calc) with iters := 3 }
    let e : Endpoint := ⟨"timelord", 19191⟩
    let steps := threeCalls default second third
    (new 0 e).queued default steps =
        [requestFrame default, requestFrame second, requestFrame third] ∧
      ((life default 0 e steps).1.handle default 4 .resendDue).2 =
        [.wrote (requestFrame second)] := by
  intro second third e steps
  have hwritten : (new 0 e).queued default steps =
      [requestFrame default, requestFrame second, requestFrame third] := by
    simp [queued, record, queues, steps, threeCalls, LinkStep.isResend, step, start, new, send,
      handle, onConnecting, onOpened, Session.applyAll, Session.apply, withSession]
  have hmade : (new 0 e).applied default steps = [⟨default, 9⟩, ⟨second, 8⟩, ⟨third, 0⟩] := by
    rw [applied, hwritten]
    rfl
  obtain ⟨-, -, -, hresends, -⟩ := calls_in_order default 0 e steps
  have hresent := hresends 4 _ rfl
  rw [hmade] at hresent
  exact ⟨hwritten, hresent⟩

end Link

end PlotMiner.Timelord
