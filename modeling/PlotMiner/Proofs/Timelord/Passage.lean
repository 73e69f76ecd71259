import PlotMiner.Timelord.Link

/-!
# What an event does to a link

Every way in which an event can change a link is one case of `Link.Passage`, with what the link must
have been like for it. What holds of a link after any event is shown by going through these cases.
To the owner of a link only three things matter: that it is told of the connection, that it is told
of a failure, and that otherwise the link is closed after the event only if it was before
(`Link.Course`). The commands that a session takes leave the mailbox in the order in which they were
put there.
-/

namespace PlotMiner.Timelord

def Command.request? : Command → Option Calc
  | send request _ => some request
  | exit => none

def requests (cs : List Command) : List Calc := cs.filterMap Command.request?

@[simp]
theorem requests_nil : requests [] = [] := rfl

@[simp]
theorem requests_send (request : Calc) (interval : Nat) (rest : List Command) :
    requests (.send request interval :: rest) = request :: requests rest := rfl

@[simp]
theorem requests_exit (rest : List Command) : requests (.exit :: rest) = requests rest := rfl

@[simp]
theorem requests_append (cs rest : List Command) :
    requests (cs ++ rest) = requests cs ++ requests rest :=
  List.filterMap_append

/-- A notice that asks nothing of the owner of a link but to keep a proof. -/
def Notice.Quiet : Notice → Prop
  | wrote _ | proof _ _ => True
  | connected | failed _ _ => False

namespace Session

variable (s : Session) (now : Nat)

/-- To send a request changes nothing in a session but what is sent again. -/
theorem apply_fst (request : Calc) (interval : Nat) :
    (s.apply now request interval).1 =
      { s with resend := (s.apply now request interval).1.resend } := by
  unfold apply
  split <;> rfl

theorem applyAll_fst (commands : List Command) :
    (s.applyAll now commands).1 = { s with resend := (s.applyAll now commands).1.resend } := by
  induction commands generalizing s with
  | nil => rfl
  | cons c rest ih =>
    cases c with
    | send request interval =>
      simp only [applyAll]
      rw [ih, apply_fst]
    | exit => exact ih s

/-- The frames of the requests, in order, are all that the commands come to for others. -/
theorem applyAll_snd (commands : List Command) :
    (s.applyAll now commands).2 =
      (requests commands).map fun request => .wrote (requestFrame request) := by
  induction commands generalizing s with
  | nil => rfl
  | cons c rest ih =>
    cases c with
    | send request interval => simp [applyAll, apply, ih]
    | exit => exact ih s

@[simp]
theorem apply_inbox (request : Calc) (interval : Nat) :
    (s.apply now request interval).1.inbox = s.inbox := by
  rw [apply_fst]

@[simp]
theorem apply_reader (request : Calc) (interval : Nat) :
    (s.apply now request interval).1.reader = s.reader := by
  rw [apply_fst]

@[simp]
theorem applyAll_inbox (commands : List Command) :
    (s.applyAll now commands).1.inbox = s.inbox := by
  rw [applyAll_fst]

@[simp]
theorem applyAll_reader (commands : List Command) :
    (s.applyAll now commands).1.reader = s.reader := by
  rw [applyAll_fst]

theorem eq_wrote_of_mem_applyAll {commands : List Command} {n : Notice}
    (hn : n ∈ (s.applyAll now commands).2) : ∃ request, n = .wrote (requestFrame request) := by
  rw [applyAll_snd] at hn
  obtain ⟨request, -, rfl⟩ := List.mem_map.1 hn
  exact ⟨request, rfl⟩

end Session

/-- What the reader of a link makes of what happens to it. -/
def Reader.hear (r : Reader) : LinkEvent → Reader × List Incoming
  | .arrived bytes => r.feed bytes
  | .hungUp => (⟨[], true⟩, r.finish)
  | .broken reason => (⟨[], true⟩, if r.stopped then [] else [.error (.broken reason)])
  | _ => (r, [])

namespace Link

inductive Passage (t : LinkTimings) (now : Nat) (l : Link) : LinkEvent → Link × List Notice → Prop
  | unmoved {e} : Passage t now l e (l, [])
  | setAside {queued c rest} (hstage : l.stage = .connecting queued)
      (hwaits : l.mailbox = c :: rest) (hstays : c ≠ .exit) :
      Passage t now l .takeCommand
        ({ l with mailbox := rest, stage := .connecting (queued ++ [c]) }, [])
  | exited {rest} (hbegun : (∃ queued, l.stage = .connecting queued) ∨ ∃ s, l.stage = .opened s)
      (hwaits : l.mailbox = .exit :: rest) :
      Passage t now l .takeCommand ({ l.close with mailbox := rest }, [])
  | late {queued} (hstage : l.stage = .connecting queued) (hclosed : l.state = .closed) :
      Passage t now l .connected (l.close, [])
  | connected {queued} (hstage : l.stage = .connecting queued) (halive : l.state ≠ .closed) :
      Passage t now l .connected ({ l with state := .connected, stage := .announcing queued }, [])
  | announced {queued} (hstage : l.stage = .announcing queued) :
      Passage t now l .announced
        ({ l with stage := .opened ((Session.new t now).applyAll now queued).1 },
          .connected :: ((Session.new t now).applyAll now queued).2)
  | applied {s request interval rest} (hstage : l.stage = .opened s)
      (hwaits : l.mailbox = .send request interval :: rest) :
      Passage t now l .takeCommand
        ({ l with mailbox := rest }.withSession (s.apply now request interval))
  | read {e s} (hstage : l.stage = .opened s) (hcalm : e ≠ .takeCommand) :
      Passage t now l e (l.withSession (s.push (s.reader.hear e).1 (s.reader.hear e).2, []))
  | received {s m rest} (hstage : l.stage = .opened s) (hinbox : s.inbox = .ok m :: rest) :
      Passage t now l .takeMessage (l.withSession ({ s with inbox := rest }.receive m))
  | pinged {s} (hstage : l.stage = .opened s) :
      Passage t now l .pingDue (l.withSession (s.ping t now))
  | resent {s r} (hstage : l.stage = .opened s) (hresend : s.resend = some r) :
      Passage t now l .resendDue
        (l.withSession ({ s with resend := some { r with due := now + r.interval } },
          [.wrote (requestFrame r.request)]))
  | refused {queued e} (hstage : l.stage = .connecting queued) :
      Passage t now l (.refused e) (l.fail .connection e.message)
  | failed {e s kind message} (hstage : l.stage = .opened s) (hlater : kind ≠ .connection)
      (hcalm : e ≠ .takeCommand) : Passage t now l e (l.fail kind message)

variable {t : LinkTimings} {now : Nat} {l : Link} {e : LinkEvent}

theorem onConnecting_passage {queued : List Command} (hstage : l.stage = .connecting queued) :
    Passage t now l e (l.onConnecting queued e) := by
  cases e with
  | connected =>
    simp only [onConnecting]
    split
    case isTrue hclosed => exact .late hstage hclosed
    case isFalse halive => exact .connected hstage halive
  | refused error => exact .refused hstage
  | takeCommand =>
    simp only [onConnecting]
    split
    case h_1 => exact .unmoved
    case h_2 hwaits => exact .exited (.inl ⟨queued, hstage⟩) hwaits
    case h_3 hstays hwaits => exact .setAside hstage hwaits hstays
  | _ => exact .unmoved

theorem onOpened_passage {s : Session} (hstage : l.stage = .opened s) :
    Passage t now l e (l.onOpened t now s e) := by
  cases e with
  | takeCommand =>
    simp only [onOpened]
    split
    case h_1 => exact .unmoved
    case h_2 hwaits => exact .exited (.inr ⟨s, hstage⟩) hwaits
    case h_3 hwaits => exact .applied hstage hwaits
  | takeMessage =>
    simp only [onOpened]
    split
    case h_1 => exact .unmoved
    case h_2 hinbox => exact .received hstage hinbox
    case h_3 => exact .failed hstage nofun nofun
  | pongDue =>
    simp only [onOpened]
    split
    case h_1 => exact .failed hstage nofun nofun
    case h_2 => exact .unmoved
  | resendDue =>
    simp only [onOpened]
    split
    case h_1 hresend => exact .resent hstage hresend
    case h_2 => exact .unmoved
  | arrived bytes => exact .read hstage nofun
  | hungUp => exact .read hstage nofun
  | broken reason => exact .read hstage nofun
  | pingDue => exact .pinged hstage
  | writeFailed reason => exact .failed hstage nofun nofun
  | connected | refused _ | announced => exact .unmoved

/-- Every event takes one of the ways. -/
theorem handle_passage (t : LinkTimings) (now : Nat) (l : Link) (e : LinkEvent) :
    Passage t now l e (l.handle t now e) := by
  cases hstage : l.stage with
  | idle => simpa only [handle, hstage] using .unmoved
  | connecting queued => simpa only [handle, hstage] using onConnecting_passage hstage
  | announcing queued =>
    simp only [handle, hstage]
    split
    case h_1 => exact .announced hstage
    case h_2 => exact .unmoved
  | opened s => simpa only [handle, hstage] using onOpened_passage hstage
  | ended => simpa only [handle, hstage] using .unmoved

theorem exit_state_of_ne_ready (h : l.state ≠ .ready) : l.exit.state = .closed := by
  unfold exit
  split
  case h_1 hready => exact absurd hready h
  case h_2 hclosed => exact hclosed
  all_goals rfl

/-- What holds of a link from its start on, whatever is done to it. -/
structure Sound (l : Link) : Prop where
  begun : l.state ≠ .ready
  leaving : .exit ∈ l.mailbox → l.state = .closed
  ended : l.stage = .ended → l.state = .closed
  setAside : ∀ queued, l.stage = .connecting queued → .exit ∉ queued

theorem sound_start (id : Nat) (endpoint : Endpoint) : (new id endpoint).start.Sound := by
  constructor <;> simp [new, start]

theorem sound_of_closed {l : Link} (hclosed : l.state = .closed)
    (hsetAside : ∀ queued, l.stage = .connecting queued → .exit ∉ queued) : l.Sound :=
  ⟨by simp [hclosed], fun _ => hclosed, fun _ => hclosed, hsetAside⟩

namespace Sound

theorem send (h : l.Sound) (request : Calc) (interval : Nat) : (l.send request interval).Sound := by
  unfold Link.send
  split
  case isTrue => exact h
  case isFalse => exact ⟨h.begun, by simpa using h.leaving, h.ended, h.setAside⟩

theorem exit_state (h : l.Sound) : l.exit.state = .closed :=
  exit_state_of_ne_ready h.begun

theorem exit (h : l.Sound) : l.exit.Sound := by
  refine sound_of_closed h.exit_state ?_
  unfold Link.exit
  split <;> exact h.setAside

theorem handle (h : l.Sound) (t : LinkTimings) (now : Nat) (e : LinkEvent) :
    (l.handle t now e).1.Sound := by
  have hway := l.handle_passage t now e
  generalize l.handle t now e = r at hway ⊢
  cases hway with
  | unmoved => exact h
  | setAside hstage hwaits hstays =>
    refine ⟨h.begun, ?_, nofun, ?_⟩
    · intro hlater
      exact h.leaving (hwaits ▸ List.mem_cons_of_mem _ hlater)
    · rintro _ ⟨⟩
      simp [h.setAside _ hstage, Ne.symm hstays]
  | exited => exact sound_of_closed rfl nofun
  | late => exact sound_of_closed rfl nofun
  | connected hstage halive =>
    exact ⟨nofun, fun hleaving => absurd (h.leaving hleaving) halive, nofun, nofun⟩
  | applied hstage hwaits =>
    refine ⟨h.begun, ?_, nofun, nofun⟩
    intro hlater
    exact h.leaving (hwaits ▸ List.mem_cons_of_mem _ hlater)
  | refused | failed => exact sound_of_closed rfl nofun
  | _ => exact ⟨h.begun, h.leaving, nofun, nofun⟩

end Sound

theorem quiet_applyAll (s : Session) (now : Nat) (commands : List Command) :
    ∀ n ∈ (s.applyAll now commands).2, n.Quiet := by
  intro n hn
  obtain ⟨request, rfl⟩ := s.eq_wrote_of_mem_applyAll now hn
  trivial

theorem quiet_noticesOf (m : Message) : ∀ n ∈ Session.noticesOf m, n.Quiet := by
  unfold Session.noticesOf
  split <;> simp [Notice.Quiet]

/-- What the owner of a link learns from an event. -/
inductive Course (l : Link) (e : LinkEvent) : Link × List Notice → Prop
  | quiet {r} (hcalm : ∀ n ∈ r.2, n.Quiet) (hclosed : r.1.state = .closed ↔ l.state = .closed)
      (hopened : ∀ s, r.1.stage = .opened s → ∃ old, l.stage = .opened old) : Course l e r
  | announced {s new} (hevent : e = .announced) (hcalm : ∀ n ∈ new, n.Quiet) :
      Course l e ({ l with stage := .opened s }, .connected :: new)
  | failed {kind message} : Course l e (l.fail kind message)

theorem Sound.course (h : l.Sound) (t : LinkTimings) (now : Nat) (e : LinkEvent) :
    l.Course e (l.handle t now e) := by
  have hway := l.handle_passage t now e
  generalize l.handle t now e = r at hway ⊢
  cases hway with
  | unmoved => exact .quiet nofun Iff.rfl fun _ hstage => ⟨_, hstage⟩
  | setAside => exact .quiet nofun Iff.rfl nofun
  | exited hbegun hwaits =>
    have hclosed := h.leaving (hwaits ▸ List.mem_cons_self)
    exact .quiet nofun (iff_of_true rfl hclosed) nofun
  | late hstage hclosed => exact .quiet nofun (iff_of_true rfl hclosed) nofun
  | connected hstage halive => exact .quiet nofun (iff_of_false nofun halive) nofun
  | announced hstage => exact .announced rfl (quiet_applyAll _ _ _)
  | applied hstage =>
    refine .quiet ?_ Iff.rfl fun _ _ => ⟨_, hstage⟩
    simp [withSession, Session.apply, Notice.Quiet]
  | read hstage => exact .quiet nofun Iff.rfl fun _ _ => ⟨_, hstage⟩
  | received hstage => exact .quiet (quiet_noticesOf _) Iff.rfl fun _ _ => ⟨_, hstage⟩
  | pinged hstage =>
    refine .quiet ?_ Iff.rfl fun _ _ => ⟨_, hstage⟩
    simp [withSession, Session.ping, Notice.Quiet]
  | resent hstage =>
    refine .quiet ?_ Iff.rfl fun _ _ => ⟨_, hstage⟩
    simp [withSession, Notice.Quiet]
  | refused | failed => exact .failed

theorem Sound.closed_handle (h : l.Sound) (hclosed : l.state = .closed) (t : LinkTimings)
    (now : Nat) (e : LinkEvent) : (l.handle t now e).1.state = .closed := by
  have hcourse := h.course t now e
  generalize l.handle t now e = r at hcourse ⊢
  cases hcourse with
  | quiet _ hsame => exact hsame.2 hclosed
  | announced => exact hclosed
  | failed => rfl

theorem Sound.of_failed (h : l.Sound) {t : LinkTimings} {now : Nat} {e : LinkEvent}
    (htold : (l.handle t now e).2.any (·.error?.isSome)) :
    ∃ kind message, l.handle t now e = l.fail kind message := by
  have hcourse := h.course t now e
  generalize l.handle t now e = r at hcourse htold ⊢
  have hcalm_any {ns : List Notice} (hcalm : ∀ n ∈ ns, n.Quiet) :
      ns.any (·.error?.isSome) = false := by
    rw [List.any_eq_false]
    intro n hmem
    have := hcalm n hmem
    cases n <;> simp_all [Notice.Quiet, Notice.error?]
  cases hcourse with
  | quiet hcalm => simp [hcalm_any hcalm] at htold
  | announced _ hcalm =>
    rw [List.any_cons, hcalm_any hcalm] at htold
    exact absurd htold Bool.false_ne_true
  | failed => exact ⟨_, _, rfl⟩

/-- The commands that leave the mailbox when an event happens. -/
def takes (t : LinkTimings) (now : Nat) (l : Link) (e : LinkEvent) : List Command :=
  l.mailbox.take (l.mailbox.length - (l.handle t now e).1.mailbox.length)

variable (t : LinkTimings) (now : Nat) (l : Link) (e : LinkEvent)

theorem handle_mailbox_suffix : (l.handle t now e).1.mailbox <:+ l.mailbox := by
  have hway := l.handle_passage t now e
  generalize l.handle t now e = r at hway ⊢
  cases hway with
  | setAside hstage hwaits | exited hstage hwaits | applied hstage hwaits =>
    rw [hwaits]
    exact List.suffix_cons ..
  | _ => exact List.suffix_rfl

/-- No event puts a command into the mailbox, and what leaves it leaves it in order. -/
theorem takes_append : l.takes t now e ++ (l.handle t now e).1.mailbox = l.mailbox :=
  List.suffix_iff_eq_append.1 (l.handle_mailbox_suffix t now e)

/-- A link that is being connected sets aside the commands that it takes, and is silent. -/
theorem handle_connecting {queued : List Command}
    (hconnecting : (l.handle t now e).1.stage = .connecting queued) :
    ∃ old, l.stage = .connecting old ∧ queued = old ++ l.takes t now e ∧
      (l.handle t now e).2 = [] := by
  unfold takes
  have hway := l.handle_passage t now e
  generalize l.handle t now e = r at hway hconnecting ⊢
  cases hway with
  | unmoved => exact ⟨queued, hconnecting, by simp, rfl⟩
  | @setAside old c rest hstage hwaits =>
    cases hconnecting
    exact ⟨old, hstage, by simp [hwaits], rfl⟩
  | _ => cases hconnecting

theorem handle_id : (l.handle t now e).1.id = l.id := by
  have hway := l.handle_passage t now e
  generalize l.handle t now e = r at hway ⊢
  cases hway <;> rfl

theorem handle_endpoint : (l.handle t now e).1.endpoint = l.endpoint := by
  have hway := l.handle_passage t now e
  generalize l.handle t now e = r at hway ⊢
  cases hway <;> rfl

@[simp]
theorem exit_id (l : Link) : l.exit.id = l.id := by
  unfold exit
  split <;> rfl

@[simp]
theorem exit_endpoint (l : Link) : l.exit.endpoint = l.endpoint := by
  unfold exit
  split <;> rfl

@[simp]
theorem exit_stage (l : Link) : l.exit.stage = l.stage := by
  unfold exit
  split <;> rfl

@[simp]
theorem send_id (l : Link) (request : Calc) (interval : Nat) :
    (l.send request interval).id = l.id := by
  unfold send
  split <;> rfl

@[simp]
theorem send_endpoint (l : Link) (request : Calc) (interval : Nat) :
    (l.send request interval).endpoint = l.endpoint := by
  unfold send
  split <;> rfl

@[simp]
theorem send_state (l : Link) (request : Calc) (interval : Nat) :
    (l.send request interval).state = l.state := by
  unfold send
  split <;> rfl

@[simp]
theorem send_stage (l : Link) (request : Calc) (interval : Nat) :
    (l.send request interval).stage = l.stage := by
  unfold send
  split <;> rfl

end Link

end PlotMiner.Timelord
