import PlotMiner.Proofs.Timelord.Handover
import PlotMiner.Proofs.Timelord.RoundTrip

/-!
# Links that are connected after the active request was cleared

Clearing the active request keeps it from the links that are connected later. It does not take back
what a link was handed while it was being connected: such a link sends every request that was
broadcast since it was made, in order, as soon as its session is open, and may send the last of them
again and again. A link that no broadcast has found while it was being connected stays idle until
the next one.
-/

namespace PlotMiner.Timelord

theorem ofFrame_requestFrame (request : Calc) :
    Message.ofFrame (requestFrame request) = .ok (.calcRequest request) := by
  obtain ⟨v, hwritten⟩ := Message.Typed.written (m := .calcRequest request) trivial
  obtain ⟨frame, htoFrame, hofFrame⟩ := hwritten.round_trip
  simpa [requestFrame, htoFrame] using hofFrame

theorem ofFrame_pingFrame : Message.ofFrame pingFrame = .ok .ping := by
  obtain ⟨v, hwritten⟩ := Message.Typed.written (m := .ping) trivial
  obtain ⟨frame, htoFrame, hofFrame⟩ := hwritten.round_trip
  simpa [pingFrame, htoFrame] using hofFrame

def LinkDeed.calc? : LinkDeed → Option Calc
  | wrote frame =>
    match Message.ofFrame frame with
    | .ok (.calcRequest request) => some request
    | _ => none
  | greeted | took _ => none

/-- The requests that a link has sent, the first one first. -/
def sent (log : List LinkDeed) : List Calc := log.filterMap LinkDeed.calc?

def sentWith (ns : List Notice) : List Calc := sent (ns.filterMap Notice.deed?)

@[simp]
theorem sent_append (log new : List LinkDeed) : sent (log ++ new) = sent log ++ sent new :=
  List.filterMap_append

@[simp]
theorem sent_nil : sent [] = [] := rfl

@[simp]
theorem sent_greeted (log : List LinkDeed) : sent (.greeted :: log) = sent log :=
  List.filterMap_cons_none rfl

@[simp]
theorem sent_took (c : Command) (log : List LinkDeed) : sent (.took c :: log) = sent log :=
  List.filterMap_cons_none rfl

@[simp]
theorem sent_request (request : Calc) (log : List LinkDeed) :
    sent (.wrote (requestFrame request) :: log) = request :: sent log := by
  refine List.filterMap_cons_some ?_
  rw [LinkDeed.calc?, ofFrame_requestFrame]

@[simp]
theorem sent_ping (log : List LinkDeed) : sent (.wrote pingFrame :: log) = sent log := by
  refine List.filterMap_cons_none ?_
  rw [LinkDeed.calc?, ofFrame_pingFrame]

@[simp]
theorem sentWith_nil : sentWith [] = [] := rfl

@[simp]
theorem sentWith_connected (ns : List Notice) : sentWith (.connected :: ns) = sentWith ns :=
  sent_greeted _

@[simp]
theorem sentWith_request (request : Calc) (ns : List Notice) :
    sentWith (.wrote (requestFrame request) :: ns) = request :: sentWith ns :=
  sent_request request _

@[simp]
theorem sentWith_ping (ns : List Notice) : sentWith (.wrote pingFrame :: ns) = sentWith ns :=
  sent_ping _

theorem sentWith_noticesOf (m : Message) : sentWith (Session.noticesOf m) = [] := by
  unfold Session.noticesOf
  split <;> rfl

theorem sent_deeds (t : LinkTimings) (now : Nat) (l : Link) (e : LinkEvent) :
    sent (l.deeds t now e) = sentWith (l.handle t now e).2 := by
  have htaken : sent ((l.takes t now e).map .took) = [] := by
    rw [sent, List.filterMap_map, List.filterMap_eq_nil_iff]
    exact fun _ _ => rfl
  rw [Link.deeds, sent_append, htaken, List.nil_append, sentWith]

def Session.held (s : Session) : List Calc := s.resend.toList.map Resend.request

def Stage.held : Stage → List Calc
  | connecting queued | announcing queued => requests queued
  | opened s => s.held
  | idle | ended => []

def Link.held (l : Link) : List Calc := l.stage.held ++ requests l.mailbox

theorem Session.sentWith_applyAll (s : Session) (now : Nat) (commands : List Command) :
    sentWith (s.applyAll now commands).2 = requests commands := by
  rw [applyAll_snd]
  induction requests commands with
  | nil => rfl
  | cons request rest ih => rw [List.map_cons, sentWith_request, ih]

theorem Session.held_apply {s : Session} {now : Nat} {request : Calc} {interval : Nat} {q : Calc}
    (h : q ∈ (s.apply now request interval).1.held) : q = request ∨ q ∈ s.held := by
  unfold apply at h
  split at h
  · exact .inr h
  · exact .inl (by simpa [held] using h)

theorem Session.held_applyAll (s : Session) (now : Nat) (commands : List Command) :
    ∀ q ∈ (s.applyAll now commands).1.held,
      q ∈ s.held ∨ q ∈ requests commands := by
  induction commands generalizing s with
  | nil => exact fun q hmem => .inl hmem
  | cons c rest ih =>
    intro q hmem
    cases c with
    | send request interval =>
      rw [requests_send, List.mem_cons]
      obtain hbefore | hlater := ih _ q hmem
      · obtain rfl | hbefore := held_apply hbefore
        · exact .inr (.inl rfl)
        · exact .inl hbefore
      · exact .inr (.inr hlater)
    | exit => exact ih s q hmem

theorem Link.held_exit (l : Link) : l.exit.held = l.held := by
  unfold exit
  split <;> simp [held]

theorem Link.held_close (l : Link) : ∀ q ∈ l.close.held, q ∈ l.held :=
  fun _ hmem => List.mem_append_right _ hmem

/-- A link sends nothing but what it holds, and does not come to hold more by itself. -/
theorem Link.held_handle (t : LinkTimings) (now : Nat) (l : Link) (e : LinkEvent) :
    (∀ q ∈ (l.handle t now e).1.held, q ∈ l.held) ∧
      ∀ q ∈ sentWith (l.handle t now e).2, q ∈ l.held := by
  have hsilent : ∀ q ∈ sentWith [], q ∈ l.held := List.forall_mem_nil _
  have hway := l.handle_passage t now e
  generalize l.handle t now e = r at hway ⊢
  cases hway with
  | unmoved => exact ⟨fun _ hmem => hmem, hsilent⟩
  | @setAside queued c rest hstage hwaits =>
    refine ⟨fun q hmem => ?_, hsilent⟩
    have hsplit : requests (c :: rest) = requests [c] ++ requests rest := requests_append [c] rest
    simpa [held, Stage.held, hstage, hwaits, hsplit] using hmem
  | exited hbegun hwaits =>
    refine ⟨fun q hmem => ?_, hsilent⟩
    refine List.mem_append_right _ ?_
    simpa [held, Stage.held, hwaits, close] using hmem
  | late => exact ⟨l.held_close, hsilent⟩
  | connected hstage =>
    refine ⟨fun q hmem => ?_, hsilent⟩
    simpa [held, Stage.held, hstage] using hmem
  | @announced queued hstage =>
    have held_eq : l.held = requests queued ++ requests l.mailbox := by
      rw [held, hstage, Stage.held]
    rw [held_eq]
    constructor
    · intro q hmem
      obtain hsession | hwaits := List.mem_append.1 hmem
      · obtain hnew | hset_aside := Session.held_applyAll _ now queued q hsession
        · cases hnew
        · exact List.mem_append_left _ hset_aside
      · exact List.mem_append_right _ hwaits
    · intro q hmem
      rw [sentWith_connected, Session.sentWith_applyAll] at hmem
      exact List.mem_append_left _ hmem
  | @applied s request interval rest hstage hwaits =>
    have held_eq : l.held = s.held ++ request :: requests rest := by
      rw [held, hstage, Stage.held, hwaits, requests_send]
    rw [held_eq]
    constructor
    · intro q hmem
      obtain hsession | hlater := List.mem_append.1 hmem
      · obtain rfl | hbefore := Session.held_apply hsession
        · simp
        · exact List.mem_append_left _ hbefore
      · exact List.mem_append_right _ (List.mem_cons_of_mem _ hlater)
    · intro q hmem
      have : q = request := by simpa [withSession, Session.apply] using hmem
      simp [this]
  | read hstage =>
    refine ⟨fun q hmem => ?_, hsilent⟩
    simpa [held, Stage.held, hstage, withSession, Session.push, Session.held] using hmem
  | @received s m rest hstage hinbox =>
    constructor
    · intro q hmem
      have hsame : ({ s with inbox := rest }.receive m).1.held = s.held := by
        unfold Session.receive
        split <;> rfl
      simpa [held, Stage.held, hstage, withSession, hsame] using hmem
    · intro q hmem
      have : q ∈ sentWith (Session.noticesOf m) := hmem
      rw [sentWith_noticesOf] at this
      cases this
  | pinged hstage =>
    constructor
    · intro q hmem
      simpa [held, Stage.held, hstage, withSession, Session.ping, Session.held] using hmem
    · intro q hmem
      simp [withSession, Session.ping] at hmem
  | @resent s r hstage hresend =>
    have held_eq : l.held = r.request :: requests l.mailbox := by
      simp [held, Stage.held, hstage, Session.held, hresend]
    rw [held_eq]
    constructor
    · intro q hmem
      simpa [held, Stage.held, withSession, Session.held] using hmem
    · intro q hmem
      have : q = r.request := by simpa [withSession] using hmem
      simp [this]
  | refused | failed => exact ⟨l.held_close, hsilent⟩

theorem mem_sent_note {log : Nat → List LinkDeed} {new : List LinkDeed} {id other : Nat} {q : Calc}
    (h : q ∈ sent (note log id new other)) :
    q ∈ sent (log other) ∨ id = other ∧ q ∈ sent new := by
  by_cases hsame : other = id
  · subst hsame
    rw [note_self, sent_append, List.mem_append] at h
    exact h.imp_right fun hmem => ⟨rfl, hmem⟩
  · rw [note_of_ne hsame] at h
    exact .inl h

namespace View

variable {t : FleetTimings} {first past id : Nat} {m : Moment} {e : Endpoint} {v v' : View}

/-- There is no active request, and the link with a number has only some requests to send. -/
structure Bound (asked : List Calc) (id past : Nat) (v : View) : Prop where
  numbered : id < past
  idle : v.active = none
  held : ∀ entry, v.entry = some entry → entry.link.id = id → ∀ q ∈ entry.link.held, q ∈ asked
  sent : ∀ q ∈ sent (v.log id), q ∈ asked

theorem Bound.fate {asked : List Calc} (h : v.Bound asked id first) (hle : first ≤ past)
    (hsilent : m.broadcast? = none) (hway : Fate t first past m e v v') :
    v'.Bound asked id past := by
  have hnumbered := Nat.lt_of_lt_of_le h.numbered hle
  cases hway with
  | kept | ignored => exact ⟨hnumbered, h.idle, h.held, h.sent⟩
  | cleared => exact ⟨hnumbered, rfl, h.held, h.sent⟩
  | asked hevent => simp [Moment.broadcast?, hevent] at hsilent
  | added hevent hlisted hwritten habsent hnew =>
    refine ⟨hnumbered, h.idle, ?_, h.sent⟩
    rintro _ ⟨⟩ rfl
    exact absurd h.numbered (Nat.not_lt.2 hnew)
  | replaced hevent hdue =>
    refine ⟨hnumbered, h.idle, ?_, h.sent⟩
    rintro _ ⟨⟩ rfl
    exact absurd h.numbered (Nat.lt_irrefl first)
  | @answered entry hevent hfound =>
    refine ⟨hnumbered, h.idle, ?_, ?_⟩
    · rintro _ ⟨⟩ hsame q hmem
      rw [h.idle] at hmem hsame
      exact h.held entry hfound hsame q hmem
    · intro q hmem
      obtain hbefore | ⟨-, hnew⟩ := mem_sent_note hmem
      · exact h.sent q hbefore
      · cases hnew
  | @reported entry untold hevent hfound hnews =>
    refine ⟨hnumbered, h.idle, ?_, h.sent⟩
    rintro _ ⟨⟩ hsame q hmem
    exact h.held entry hfound (by simpa using hsame) q (entry.link.held_exit ▸ hmem)
  | @moved entry event hhappens hfound =>
    obtain ⟨hheld, hsends⟩ := Link.held_handle t.link m.time entry.link event
    refine ⟨hnumbered, h.idle, ?_, ?_⟩
    · rintro _ ⟨⟩ hsame q hmem
      rw [Link.handle_id] at hsame
      exact h.held entry hfound hsame q (hheld q hmem)
    · intro q hmem
      obtain hbefore | ⟨hsame, hnew⟩ := mem_sent_note hmem
      · exact h.sent q hbefore
      · rw [sent_deeds] at hnew
        exact h.held entry hfound hsame q (hsends q hnew)
  | @announced entry s new hhappens hfound hway =>
    obtain ⟨hheld, hsends⟩ := Link.held_handle t.link m.time entry.link .announced
    refine ⟨hnumbered, h.idle, ?_, ?_⟩
    · rintro _ ⟨⟩ hsame q hmem
      rw [h.idle] at hmem hsame
      rw [hway] at hheld
      exact h.held entry hfound hsame q (hheld q hmem)
    · intro q hmem
      obtain hbefore | ⟨hsame, hnew⟩ := mem_sent_note hmem
      · exact h.sent q hbefore
      · rw [sent_deeds] at hnew
        exact h.held entry hfound hsame q (hsends q hnew)
  | @failed entry event hhappens hfound =>
    refine ⟨hnumbered, h.idle, ?_, h.sent⟩
    rintro _ ⟨⟩ hsame q hmem
    exact h.held entry hfound hsame q (entry.link.held_close q hmem)
  | @lapsed entry event hhappens hfound =>
    refine ⟨hnumbered, h.idle, ?_, h.sent⟩
    rintro _ ⟨⟩ hsame q hmem
    exact h.held entry hfound hsame q (entry.link.held_close q hmem)

/-- A link that is being connected has sent nothing, and has set aside what it has taken. -/
def Unsent (v : View) : Prop :=
  ∀ entry queued, v.entry = some entry → entry.link.stage = .connecting queued →
    (v.log entry.link.id).filterMap LinkDeed.taken? = queued ∧ sent (v.log entry.link.id) = []

theorem Unsent.fate (h : v.Unsent) (htended : v.Tended first e)
    (hway : Fate t first past m e v v') : v'.Unsent := by
  intro entry' queued hfound' hstage
  cases hway with
  | kept | cleared | ignored => exact h entry' queued hfound' hstage
  | asked =>
    obtain ⟨entry, hfound, rfl⟩ := Option.map_eq_some_iff.1 hfound'
    simpa using h entry queued hfound (by simpa using hstage)
  | @added _ _ _ id hevent hlisted hwritten habsent hnew =>
    cases hfound'
    cases hstage
    have hblank : v.log id = [] := htended.blank id hnew
    exact ⟨congrArg _ hblank, congrArg sent hblank⟩
  | replaced hevent hdue =>
    cases hfound'
    cases hstage
    have hblank : v.log first = [] := htended.blank first (Nat.le_refl first)
    exact ⟨congrArg _ hblank, congrArg sent hblank⟩
  | answered hevent hfound =>
    cases hfound'
    have hnone_taken : [LinkDeed.greeted].filterMap LinkDeed.taken? = [] := rfl
    simpa [hnone_taken] using h _ queued hfound (by simpa using hstage)
  | reported hevent hfound =>
    cases hfound'
    simpa using h _ queued hfound (by simpa using hstage)
  | @moved entry event hhappens hfound =>
    cases hfound'
    obtain ⟨old, hbefore, rfl, hsilent⟩ := Link.handle_connecting _ _ _ _ hstage
    obtain ⟨htaken, hunsent⟩ := h entry old hfound hbefore
    dsimp only
    rw [Link.handle_id]
    constructor
    · rw [note_self, List.filterMap_append, htaken, taken_deeds]
    · rw [note_self, sent_append, hunsent, sent_deeds, hsilent]
      rfl
  | announced hhappens hfound =>
    cases hfound'
    rw [FleetEntry.answered_stage] at hstage
    cases hstage
  | failed | lapsed => cases hfound'; cases hstage

theorem Unsent.held_eq (h : v.Unsent) {entry : FleetEntry} {queued : List Command}
    (hfound : v.entry = some entry) (hstage : entry.link.stage = .connecting queued) :
    entry.link.held = handed v.log entry.link := by
  obtain ⟨htaken, -⟩ := h entry queued hfound hstage
  rw [handed, htaken, requests_append, Link.held, hstage, Stage.held]

/-- A link that is still being connected has been handed what it had been handed before, and what
was broadcast meanwhile. -/
theorem Tended.handed_connecting (h : v.Tended first e) (hway : Fate t first past m e v v')
    (hunprompted : ∀ id, m.occurrence ≠ .event (.reportConnected id e)) {entry' : FleetEntry}
    {queued : List Command} (hfound' : v'.entry = some entry') (hold : entry'.link.id < first)
    (hconnecting : entry'.link.stage = .connecting queued) (halive : entry'.link.state ≠ .closed) :
    ∃ entry before, v.entry = some entry ∧ entry.link.id = entry'.link.id ∧
      entry.link.stage = .connecting before ∧ entry.link.state ≠ .closed ∧
      handed v'.log entry'.link = handed v.log entry.link ++ m.broadcast?.toList := by
  cases hway with
  | kept hsilent =>
    refine ⟨entry', queued, hfound', rfl, hconnecting, halive, ?_⟩
    simp [hsilent]
  | cleared hevent | ignored hevent =>
    refine ⟨entry', queued, hfound', rfl, hconnecting, halive, ?_⟩
    simp [Moment.broadcast?, hevent]
  | @asked request interval hevent =>
    obtain ⟨entry, hfound, rfl⟩ := Option.map_eq_some_iff.1 hfound'
    have hnews : ¬ entry.reconnecting = true := by
      intro hwaits
      refine absurd ((h.entry entry hfound).dead hwaits) ?_
      simpa [FleetEntry.asked, hwaits] using halive
    have hstage : entry.link.stage = .connecting queued := by simpa using hconnecting
    have halive_before : entry.link.state ≠ .closed := by
      simpa [FleetEntry.asked, hnews] using halive
    refine ⟨entry, queued, hfound, by simp, hstage, halive_before, ?_⟩
    simp [FleetEntry.asked, hnews, handed_send v.log _ halive_before, Moment.broadcast?, hevent]
  | added hevent hlisted hwritten habsent hnew =>
    cases hfound'
    exact absurd hold (Nat.not_lt.2 hnew)
  | replaced hevent hdue =>
    cases hfound'
    exact absurd hold (Nat.lt_irrefl first)
  | answered hevent hfound => exact absurd hevent (hunprompted _)
  | reported hevent hfound =>
    cases hfound'
    exact absurd (h.entry _ hfound).sound.exit_state halive
  | @moved entry event hhappens hfound hcalm hclosed =>
    cases hfound'
    obtain ⟨before, hstage, -, -⟩ := Link.handle_connecting _ _ _ _ hconnecting
    refine ⟨entry, before, hfound, ?_, hstage, mt hclosed.2 halive, ?_⟩
    · exact (Link.handle_id ..).symm
    · simp [handed_handle, Moment.broadcast?, hhappens]
  | announced hhappens hfound =>
    cases hfound'
    rw [FleetEntry.answered_stage] at hconnecting
    cases hconnecting
  | failed | lapsed => cases hfound'; cases hconnecting

/-- A link that was not there before has just been made, and has been handed nothing. -/
theorem Tended.handed_new (h : v.Tended first e) (hway : Fate t first past m e v v')
    {entry' : FleetEntry} (hfound' : v'.entry = some entry')
    (hnew : ∀ entry, v.entry = some entry → entry.link.id ≠ entry'.link.id) :
    handed v'.log entry'.link = [] := by
  cases hway with
  | kept | cleared | ignored => exact absurd rfl (hnew entry' hfound')
  | asked =>
    obtain ⟨entry, hfound, rfl⟩ := Option.map_eq_some_iff.1 hfound'
    exact absurd (by simp) (hnew entry hfound)
  | @added _ _ _ id hevent hlisted hwritten habsent hunused =>
    cases hfound'
    have hblank : v.log id = [] := h.blank id hunused
    simp [handed, FleetEntry.fresh, Link.new, Link.start, hblank]
  | replaced hevent hdue =>
    cases hfound'
    have hblank : v.log first = [] := h.blank first (Nat.le_refl first)
    simp [handed, FleetEntry.fresh, Link.new, Link.start, hblank]
  | answered _ hfound | reported _ hfound | moved _ hfound | announced _ hfound | failed _ hfound
  | lapsed _ hfound =>
    cases hfound'
    exact absurd (by simp [Link.handle_id, Link.close]) (hnew _ hfound)

end View

namespace Chronicle

variable {t : FleetTimings} {c : Chronicle} {m : Moment} {e : Endpoint} {entry : FleetEntry}

theorem next_quiet {event : LinkEvent} {link : Link} {ns : List Notice}
    (hhappens : m.occurrence = .event (.link e event)) (hfound : c.fleet.find? e = some entry)
    (hway : entry.link.handle t.link m.time event = (link, ns)) (hcalm : ∀ n ∈ ns, n.Quiet) :
    (c.next t m).fleet.find? e = some { entry with link := link } ∧
      sent ((c.next t m).log e entry.link.id) = sent (c.log e entry.link.id) ++ sentWith ns := by
  have hcalm : ∀ n ∈ (entry.link.handle t.link m.time event).2, n.Quiet := by rwa [hway]
  have htouched := Fleet.touched_onLink_quiet t m.time hfound hcalm
  have hseen := (seen_link hhappens hfound htouched e).trans (if_pos rfl)
  refine ⟨?_, ?_⟩
  · have hthere : (c.next t m).fleet.find? e = some _ := congrArg View.entry hseen
    rw [hthere, hway]
  · have hlog : (c.next t m).log e = note (c.log e) entry.link.id _ := congrArg View.log hseen
    rw [hlog, note_self, sent_append, sent_deeds, hway]

theorem next_announced {queued : List Command}
    (hhappens : m.occurrence = .event (.link e .announced))
    (hfound : c.fleet.find? e = some entry) (hstage : entry.link.stage = .announcing queued) :
    sent ((c.next t m).log e entry.link.id) =
      sent (c.log e entry.link.id) ++ requests queued := by
  have hway : entry.link.handle t.link m.time .announced =
      ({ entry.link with
          stage := .opened ((Session.new t.link m.time).applyAll m.time queued).1 },
        .connected :: ((Session.new t.link m.time).applyAll m.time queued).2) := by
    simp [Link.handle, hstage]
  have htouched := Fleet.touched_onLink_announced t m.time hfound hway (Link.quiet_applyAll _ _ _)
  have hseen := (seen_link hhappens hfound htouched e).trans (if_pos rfl)
  have hlog : (c.next t m).log e = note (c.log e) entry.link.id _ := congrArg View.log hseen
  rw [hlog, note_self, sent_append, sent_deeds, hway, sentWith_connected,
    Session.sentWith_applyAll]

/-- A link that is being connected sends all that it holds as soon as it is connected. -/
theorem sends_held (t : FleetTimings) (now : Nat) {queued : List Command}
    (hfound : c.fleet.find? e = some entry) (hstage : entry.link.stage = .connecting queued)
    (halive : entry.link.state ≠ .closed) (hstays : .exit ∉ entry.link.mailbox) :
    ∃ later : List Moment,
      (∀ m ∈ later, m.time = now ∧ ∃ event, m.occurrence = .event (.link e event)) ∧
      sent ((later.foldl (Chronicle.next t) c).log e entry.link.id) =
        sent (c.log e entry.link.id) ++ entry.link.held := by
  generalize hmailbox : entry.link.mailbox = commands at hstays
  induction commands generalizing c entry queued with
  | nil =>
    let connects : Moment := ⟨now, .event (.link e .connected)⟩
    let announces : Moment := ⟨now, .event (.link e .announced)⟩
    have hheld : entry.link.held = requests queued := by
      simp [Link.held, hstage, Stage.held, hmailbox]
    have hconnected : entry.link.handle t.link now .connected =
        ({ entry.link with state := .connected, stage := .announcing queued }, []) := by
      simp [Link.handle, hstage, Link.onConnecting, halive]
    obtain ⟨hfound, hsilent⟩ :=
      next_quiet (m := connects) rfl hfound hconnected (List.forall_mem_nil _)
    refine ⟨[connects, announces], by simp [connects, announces], ?_⟩
    have hsends := next_announced (t := t) (m := announces) rfl hfound rfl
    rw [List.foldl_cons, List.foldl_cons, List.foldl_nil, hheld, hsends, hsilent, sentWith_nil,
      List.append_nil]
  | cons command rest ih =>
    cases command with
    | exit => exact absurd List.mem_cons_self hstays
    | send request interval =>
      let takes : Moment := ⟨now, .event (.link e .takeCommand)⟩
      have htaken : entry.link.handle t.link now .takeCommand =
          ({ entry.link with
              mailbox := rest
              stage := .connecting (queued ++ [.send request interval]) }, []) := by
        simp [Link.handle, hstage, Link.onConnecting, hmailbox]
      have hheld : entry.link.held =
          requests (queued ++ [.send request interval]) ++ requests rest := by
        simp [Link.held, hstage, Stage.held, hmailbox]
      have hstays_rest : .exit ∉ rest := fun hmem => hstays (List.mem_cons_of_mem _ hmem)
      obtain ⟨hfound, hsilent⟩ := next_quiet (m := takes) rfl hfound htaken (List.forall_mem_nil _)
      obtain ⟨later, hlinks, hsends⟩ := ih hfound rfl halive rfl hstays_rest
      refine ⟨takes :: later, List.forall_mem_cons.2 ⟨⟨rfl, _, rfl⟩, hlinks⟩, ?_⟩
      rw [List.foldl_cons, hsends, hsilent, sentWith_nil, List.append_nil, hheld]
      rfl

end Chronicle

def Silent (ms : List Moment) : Prop := ∀ m ∈ ms, m.broadcast? = none

/-- A link that has been connecting ever since it was made has been handed what was broadcast since
then, unless somebody else said that it was connected. -/
theorem handed_while_connecting (t : FleetTimings) {before after : List Moment} {m : Moment}
    {e : Endpoint} {entry : FleetEntry} {queued : List Command} (hearly : Running before)
    (hstays : m.occurrence ≠ .event .shutdown) (hlate : Running after)
    (hunprompted : ∀ m ∈ after, ∀ id, m.occurrence ≠ .event (.reportConnected id e))
    (hnew : ¬ (chronicle t before).fleet.Current e entry.link.id)
    (hmade : (chronicle t (before ++ [m])).fleet.Current e entry.link.id)
    (hfound : (chronicle t (before ++ m :: after)).fleet.find? e = some entry)
    (hconnecting : entry.link.stage = .connecting queued) (halive : entry.link.state ≠ .closed) :
    handed ((chronicle t (before ++ m :: after)).log e) entry.link =
      after.filterMap Moment.broadcast? := by
  have htended := tended_chronicle t hearly
  rw [chronicle_snoc] at hmade
  induction after using List.reverseRecOn generalizing entry queued with
  | nil =>
    rw [chronicle_snoc] at hfound ⊢
    refine (htended.view e).handed_new (htended.fate t hstays e) hfound ?_
    exact fun entry' hfound' hsame => hnew ⟨entry', hfound', hsame⟩
  | append_singleton after last ih =>
    obtain ⟨hunprompted, hunprompted_last⟩ := List.forall_mem_append.1 hunprompted
    obtain ⟨hlate, hstays_last⟩ := List.forall_mem_append.1 hlate
    have hstays_last := hstays_last last List.mem_cons_self
    have hsplit : before ++ m :: (after ++ [last]) = (before ++ m :: after) ++ [last] := by simp
    have hrunning : Running (before ++ m :: after) :=
      List.forall_mem_append.2 ⟨hearly, List.forall_mem_cons.2 ⟨hstays, hlate⟩⟩
    have htended_last := tended_chronicle t hrunning
    have hnumbered : entry.link.id < (chronicle t (before ++ m :: after)).fleet.nextId := by
      rw [chronicle_split]
      exact (htended.next t hstays).run t (e := e) (P := fun past _ => entry.link.id < past)
        (fun _ _ hle _ hold => Nat.lt_of_lt_of_le hold hle) hlate
        ((htended.next t hstays).numbered hmade)
    rw [hsplit, chronicle_snoc] at hfound ⊢
    obtain ⟨entry', queued', hfound', hsame, hstage, halive', hhanded⟩ :=
      (htended_last.view e).handed_connecting (htended_last.fate t hstays_last e)
        (hunprompted_last last List.mem_cons_self) hfound hnumbered hconnecting halive
    rw [← hsame] at hnew hmade
    have hearlier := ih hlate hunprompted hnew hmade hfound' hstage halive'
    have hone : [last].filterMap Moment.broadcast? = last.broadcast?.toList := by
      cases hheard : last.broadcast? <;> simp [hheard]
    exact hhanded.trans (by rw [List.filterMap_append, ← hearlier, hone]; rfl)

/-- A link that is being connected while no request is active sends, until the next broadcast,
nothing but what was broadcast since it was made; it sends all of that as soon as it is connected;
and so it stays idle, whatever happens, just if nothing was broadcast since it was made. -/
theorem sent_after_clear (t : FleetTimings) (before after : List Moment) (m : Moment)
    (e : Endpoint) (entry : FleetEntry) (queued : List Command)
    (hrunning : Running (before ++ m :: after))
    (hunprompted : ∀ m ∈ after, ∀ id, m.occurrence ≠ .event (.reportConnected id e))
    (hnew : ¬ (chronicle t before).fleet.Current e entry.link.id)
    (hmade : (chronicle t (before ++ [m])).fleet.Current e entry.link.id)
    (hfound : (chronicle t (before ++ m :: after)).fleet.find? e = some entry)
    (hconnecting : entry.link.stage = .connecting queued) (halive : entry.link.state ≠ .closed)
    (hcleared : (chronicle t (before ++ m :: after)).fleet.active = none) :
    let sentAfter (later : List Moment) :=
      sent ((chronicle t (before ++ m :: after ++ later)).log e entry.link.id)
    let asked := after.filterMap Moment.broadcast?
    (∀ later, Running later → Silent later → ∀ q ∈ sentAfter later, q ∈ asked) ∧
      (∀ now, ∃ later, Running later ∧ Silent later ∧ (∀ m ∈ later, m.time = now) ∧
        sentAfter later = asked) ∧
      ((∀ later, Running later → Silent later → sentAfter later = []) ↔ asked = []) := by
  intro sentAfter asked
  have htended := tended_chronicle t hrunning
  obtain ⟨hearly, hlate⟩ := List.forall_mem_append.1 hrunning
  obtain ⟨hstays, hlate⟩ := List.forall_mem_cons.1 hlate
  have hhanded_eq : handed ((chronicle t (before ++ m :: after)).log e) entry.link = asked :=
    handed_while_connecting t hearly hstays hlate hunprompted hnew hmade hfound hconnecting halive
  have hunsent : ((chronicle t (before ++ m :: after)).view e).Unsent :=
    Chronicle.tended_start.run t (P := fun _ v => v.Unsent)
      (fun _ htended _ hway h => h.fate htended hway) hrunning fun _ _ habsent => nomatch habsent
  have hheld : entry.link.held = asked := (hunsent.held_eq hfound hconnecting).trans hhanded_eq
  have hnothing : sent ((chronicle t (before ++ m :: after)).log e entry.link.id) = [] :=
    (hunsent entry queued hfound hconnecting).2
  have honly (later) (hrunning_later : Running later) (hsilent : Silent later) :
      ∀ q ∈ sentAfter later, q ∈ asked := by
    have hbound : View.Bound asked entry.link.id (chronicle t (before ++ m :: after)).fleet.nextId
        ((chronicle t (before ++ m :: after)).view e) := by
      refine ⟨htended.numbered ⟨entry, hfound, rfl⟩, hcleared, ?_, ?_⟩
      · intro entry' hfound' _ q hmem
        cases hfound.symm.trans hfound'
        exact hheld ▸ hmem
      · intro q hmem
        exact absurd (hnothing ▸ hmem) List.not_mem_nil
    have hbound_later := htended.run t (P := View.Bound asked entry.link.id)
      (fun hmem _ hle hway hbound => hbound.fate hle (hsilent _ hmem) hway) hrunning_later hbound
    rw [← chronicle_append] at hbound_later
    exact hbound_later.sent
  have hall (now : Nat) : ∃ later, Running later ∧ Silent later ∧ (∀ m ∈ later, m.time = now) ∧
      sentAfter later = asked := by
    have hstays : .exit ∉ entry.link.mailbox := fun hleaving =>
      halive (((htended.view e).entry entry hfound).sound.leaving hleaving)
    obtain ⟨later, hlinks, hsends⟩ := Chronicle.sends_held t now hfound hconnecting halive hstays
    refine ⟨later, ?_, ?_, fun m hmem => (hlinks m hmem).1, ?_⟩
    · intro m hmem
      obtain ⟨-, event, hhappens⟩ := hlinks m hmem
      simp [hhappens]
    · intro m hmem
      obtain ⟨-, event, hhappens⟩ := hlinks m hmem
      simp [Moment.broadcast?, hhappens]
    · rw [hnothing, hheld, List.nil_append, ← chronicle_append] at hsends
      exact hsends
  refine ⟨honly, hall, ?_⟩
  constructor
  · intro hidle
    obtain ⟨later, hrunning_later, hsilent, -, hsends⟩ := hall 0
    exact hsends ▸ hidle later hrunning_later hsilent
  · intro hnone_asked later hrunning_later hsilent
    refine List.eq_nil_iff_forall_not_mem.2 fun q hmem => ?_
    exact absurd (hnone_asked ▸ honly later hrunning_later hsilent q hmem) List.not_mem_nil

/-- A request is broadcast to a link that is being connected, and cleared before it is connected. -/
def broadcastAndCleared (request : Calc) : List Moment :=
  [⟨0, .event (.startAll ["timelord"] 19191)⟩, ⟨1, .event (.broadcast request 22)⟩,
    ⟨2, .event .clearActive⟩]

theorem sent_after_clear_of_broadcast :
    (chronicle default (broadcastAndCleared default)).fleet.active = none ∧
      ∃ later, Running later ∧ Silent later ∧ (∀ m ∈ later, m.time = 3) ∧
        sent ((chronicle default (broadcastAndCleared default ++ later)).log
          ⟨"timelord", 19191⟩ 0) = [default] := by
  let e : Endpoint := ⟨"timelord", 19191⟩
  let entry : FleetEntry :=
    ⟨{ (Link.new 0 e).start with mailbox := [.send default 22000] }, false⟩
  have hrunning : Running (broadcastAndCleared default) := by simp [Running, broadcastAndCleared]
  have hnew : ¬ (chronicle default []).fleet.Current e 0 := by
    rintro ⟨entry, hfound, -⟩
    cases hfound
  have hsends := sent_after_clear default [] (broadcastAndCleared default).tail ⟨0, _⟩ e entry []
    hrunning (by simp [broadcastAndCleared]) hnew ⟨_, rfl, rfl⟩ rfl rfl (by decide) rfl
  exact ⟨rfl, hsends.2.1 3⟩

/-- The link is connected three milliseconds after the request was cleared. -/
def connectedAfterwards : List Moment :=
  let e : Endpoint := ⟨"timelord", 19191⟩
  [⟨3, .event (.link e .takeCommand)⟩, ⟨5, .event (.link e .connected)⟩,
    ⟨5, .event (.link e .announced)⟩, ⟨22005, .event (.link e .resendDue)⟩]

/-- The request that was cleared is sent to the timelord, and sent again when it is due. -/
theorem cleared_request_sent_twice :
    let c := chronicle default (broadcastAndCleared default)
    let c' := chronicle default (broadcastAndCleared default ++ connectedAfterwards)
    c.fleet.active = none ∧ Silent connectedAfterwards ∧
      (c.fleet.find? ⟨"timelord", 19191⟩).map (·.link.state) = some .connecting ∧
      (c'.fleet.find? ⟨"timelord", 19191⟩).map (·.link.state) = some .connected ∧
      sent (c'.log ⟨"timelord", 19191⟩ 0) = [default, default] := by
  -- with a variable for the request its frame is not computed
  have hlog (request : Calc) :
      (chronicle default (broadcastAndCleared request ++ connectedAfterwards)).log
          ⟨"timelord", 19191⟩ 0 =
        [.took (.send request 22000), .greeted, .wrote (requestFrame request),
          .wrote (requestFrame request)] := rfl
  have hsilent : Silent connectedAfterwards := by
    simp [Silent, connectedAfterwards, Moment.broadcast?]
  exact ⟨rfl, hsilent, rfl, rfl, (congrArg sent (hlog default)).trans (by simp)⟩

end PlotMiner.Timelord
