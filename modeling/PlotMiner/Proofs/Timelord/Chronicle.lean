import Mathlib.Logic.Function.Basic
import PlotMiner.Proofs.Timelord.Upkeep

/-!
# What happens to an endpoint

A chronicle goes with a fleet from one moment to the next. Beside the fleet it keeps what the links
have done, and which failures the fleet has not been told of: a link that fails is closed at once,
and the fleet may be told so much later, after other things have happened to it.

What a moment does is seen best from one endpoint: its entry, the delays that run for it, what its
links have done, and the active request. The ways in which a moment can change this view are the
cases of `Fate`. Invariants of a fleet are shown of the views, by going through these cases.
-/

namespace PlotMiner.Timelord

inductive LinkDeed where
  | greeted
  | took (c : Command)
  | wrote (frame : List UInt8)

def Notice.deed? : Notice → Option LinkDeed
  | connected => some .greeted
  | wrote frame => some (.wrote frame)
  | proof _ _ | failed _ _ => none

/-- What a link does about an event. -/
def Link.deeds (t : LinkTimings) (now : Nat) (l : Link) (e : LinkEvent) : List LinkDeed :=
  (l.takes t now e).map .took ++ (l.handle t now e).2.filterMap Notice.deed?

inductive Occurrence where
  | event (event : FleetEvent)
  /-- The current link to an endpoint fails, and the fleet is not yet told. -/
  | lapse (endpoint : Endpoint) (event : LinkEvent)
  | told (endpoint : Endpoint) (linkId : Nat)

structure Moment where
  time : Nat
  occurrence : Occurrence

def Moment.broadcast? (m : Moment) : Option Calc :=
  match m.occurrence with
  | .event (.broadcast request _) => some request
  | _ => none

structure Chronicle where
  fleet : Fleet
  /-- The links to an endpoint that have failed without the fleet being told. -/
  untold : Endpoint → List Nat
  log : Endpoint → Nat → List LinkDeed

def note (log : Nat → List LinkDeed) (id : Nat) (new : List LinkDeed) : Nat → List LinkDeed :=
  Function.update log id (log id ++ new)

namespace Chronicle

def start : Chronicle := ⟨.empty, fun _ => [], fun _ _ => []⟩

/-- What the links have done after an event. -/
def noted (t : FleetTimings) (now : Nat) (c : Chronicle) :
    FleetEvent → Endpoint → Nat → List LinkDeed
  | .link e event =>
    match c.fleet.find? e with
    | some entry =>
      Function.update c.log e (note (c.log e) entry.link.id (entry.link.deeds t.link now event))
    | none => c.log
  | .reportConnected id e =>
    match c.fleet.find? e with
    | some entry =>
      if entry.link.id = id then Function.update c.log e (note (c.log e) id [.greeted]) else c.log
    | none => c.log
  | _ => c.log

/-- The link of an entry fails by an event, if it fails by it at all. -/
def lapse (t : FleetTimings) (now : Nat) (c : Chronicle) (e : Endpoint) (entry : FleetEntry)
    (event : LinkEvent) : Chronicle :=
  let r := entry.link.handle t.link now event
  if r.2.any (·.error?.isSome) then
    { c with
      fleet := c.fleet.put e { entry with link := r.1 }
      untold := Function.update c.untold e (c.untold e ++ [r.1.id]) }
  else c

def next (t : FleetTimings) (c : Chronicle) (m : Moment) : Chronicle :=
  match m.occurrence with
  | .event event =>
    { c with fleet := (c.fleet.handle t m.time event).1, log := c.noted t m.time event }
  | .lapse e event =>
    match c.fleet.find? e with
    | some entry => c.lapse t m.time e entry event
    | none => c
  | .told e id =>
    if id ∈ c.untold e then
      { c with
        fleet := (c.fleet.handle t m.time (.reportError id e)).1
        untold := Function.update c.untold e ((c.untold e).erase id) }
    else c

end Chronicle

/-- What has become of a new fleet. -/
def chronicle (t : FleetTimings) (ms : List Moment) : Chronicle :=
  ms.foldl (Chronicle.next t) .start

theorem chronicle_append (t : FleetTimings) (ms later : List Moment) :
    chronicle t (ms ++ later) = later.foldl (Chronicle.next t) (chronicle t ms) :=
  List.foldl_append

theorem chronicle_snoc (t : FleetTimings) (ms : List Moment) (m : Moment) :
    chronicle t (ms ++ [m]) = (chronicle t ms).next t m :=
  chronicle_append t ms [m]

/-- What there is to see of one endpoint. -/
structure View where
  entry : Option FleetEntry
  waiting : Nat
  untold : List Nat
  log : Nat → List LinkDeed
  active : Option Calc

def Chronicle.view (c : Chronicle) (e : Endpoint) : View :=
  ⟨c.fleet.find? e, c.fleet.waiting e, c.untold e, c.log e, c.fleet.active⟩

/-- What a moment does to an endpoint, of which `v` is seen. The links that are made at this moment
are numbered from `first` to `past`. -/
inductive Fate (t : FleetTimings) (first past : Nat) (m : Moment) (e : Endpoint) (v : View) :
    View → Prop
  | kept (hsilent : m.broadcast? = none) :
      Fate t first past m e v v
  | cleared (hevent : m.occurrence = .event .clearActive) :
      Fate t first past m e v { v with active := none }
  | asked {request interval} (hevent : m.occurrence = .event (.broadcast request interval)) :
      Fate t first past m e v
        { v with entry := v.entry.map (·.asked request interval), active := some request }
  | added {texts port text id} (hevent : m.occurrence = .event (.startAll texts port))
      (hlisted : text ∈ texts) (hwritten : Endpoint.parse text port = .ok e)
      (habsent : v.entry = none) (hnew : first ≤ id) (hnumbered : id < past) :
      Fate t first past m e v { v with entry := some (.fresh id e) }
  | replaced (hevent : m.occurrence = .event (.reconnect e)) (hdue : 0 < v.waiting)
      (hnumbered : first < past) :
      Fate t first past m e v
        { v with entry := some (.fresh first e), waiting := v.waiting - 1 }
  | answered {entry} (hevent : m.occurrence = .event (.reportConnected entry.link.id e))
      (hfound : v.entry = some entry) :
      Fate t first past m e v
        { v with
          entry := some (entry.answered v.active)
          log := note v.log entry.link.id [.greeted] }
  | ignored {id} (hevent : m.occurrence = .told e id)
      (hknown : ∀ entry, v.entry = some entry → entry.link.id = id → entry.reconnecting = true) :
      Fate t first past m e v { v with untold := v.untold.erase id }
  | reported {entry untold}
      (hevent : m.occurrence = .event (.reportError entry.link.id e) ∨
        m.occurrence = .told e entry.link.id)
      (hfound : v.entry = some entry) (hnews : entry.reconnecting = false) :
      Fate t first past m e v
        { v with
          entry := some ⟨entry.link.exit, true⟩
          waiting := v.waiting + 1
          untold := untold }
  | moved {entry event} (hhappens : m.occurrence = .event (.link e event))
      (hfound : v.entry = some entry)
      (hcalm : ∀ n ∈ (entry.link.handle t.link m.time event).2, n.Quiet)
      (hclosed : (entry.link.handle t.link m.time event).1.state = .closed ↔
        entry.link.state = .closed)
      (hopened : ∀ s, (entry.link.handle t.link m.time event).1.stage = .opened s →
        ∃ old, entry.link.stage = .opened old) :
      Fate t first past m e v
        { v with
          entry := some { entry with link := (entry.link.handle t.link m.time event).1 }
          log := note v.log entry.link.id (entry.link.deeds t.link m.time event) }
  | announced {entry s new} (hhappens : m.occurrence = .event (.link e .announced))
      (hfound : v.entry = some entry)
      (hway : entry.link.handle t.link m.time .announced =
        ({ entry.link with stage := .opened s }, .connected :: new))
      (hcalm : ∀ n ∈ new, n.Quiet) :
      Fate t first past m e v
        { v with
          entry := some
            (FleetEntry.answered { entry with link := { entry.link with stage := .opened s } }
              v.active)
          log := note v.log entry.link.id (entry.link.deeds t.link m.time .announced) }
  | failed {entry event} (hhappens : m.occurrence = .event (.link e event))
      (hfound : v.entry = some entry)
      (hway : ∃ kind message,
        entry.link.handle t.link m.time event = entry.link.fail kind message) :
      Fate t first past m e v
        { v with
          entry := some ⟨entry.link.close, true⟩
          waiting := if entry.reconnecting then v.waiting else v.waiting + 1 }
  | lapsed {entry event} (hhappens : m.occurrence = .lapse e event)
      (hfound : v.entry = some entry) :
      Fate t first past m e v
        { v with
          entry := some { entry with link := entry.link.close }
          untold := v.untold ++ [entry.link.id] }

namespace Chronicle

variable {t : FleetTimings} {c : Chronicle} {m : Moment} {e : Endpoint}

theorem lasts_next (t : FleetTimings) (c : Chronicle) (hstays : m.occurrence ≠ .event .shutdown) :
    Fleet.Lasts c.fleet (c.next t m).fleet := by
  unfold next
  split
  case h_1 event hhappens =>
    refine Fleet.lasts_handle _ t _ ?_
    rintro rfl
    exact hstays hhappens
  case h_2 k event hhappens =>
    split
    · unfold lapse
      dsimp only
      split <;> exact ⟨Nat.le_refl _, rfl⟩
    · exact Fleet.respects_lasts.refl _
  case h_3 k id hhappens =>
    split
    · exact Fleet.lasts_handle _ t _ nofun
    · exact Fleet.respects_lasts.refl _

theorem seen_of_touched {c' : Chronicle} {k : Endpoint} {entry : FleetEntry} {w : Nat}
    {untold : List Nat} {log : Nat → List LinkDeed}
    (hfleet : Fleet.Touched k entry w c.fleet c'.fleet)
    (huntold_eq : c'.untold = Function.update c.untold k untold)
    (hlog_eq : c'.log = Function.update c.log k log) (e : Endpoint) :
    c'.view e = if e = k then ⟨some entry, w, untold, log, c.fleet.active⟩ else c.view e := by
  split
  case isTrue hsame =>
    subst hsame
    simp [view, hfleet.find, hfleet.waits, hfleet.active, huntold_eq, hlog_eq]
  case isFalse hother =>
    simp [view, hfleet.find, hfleet.waits, hfleet.active, huntold_eq, hlog_eq, hother]

theorem fate_of_seen {c' : Chronicle} {k : Endpoint} {v : View} {first past : Nat}
    (hsilent : m.broadcast? = none)
    (hseen : ∀ e, c'.view e = if e = k then v else c.view e)
    (hway : Fate t first past m k (c.view k) v) (e : Endpoint) :
    Fate t first past m e (c.view e) (c'.view e) := by
  rw [hseen e]
  split
  case isTrue hsame => exact hsame ▸ hway
  case isFalse => exact .kept hsilent

theorem next_event {event : FleetEvent} (hhappens : m.occurrence = .event event) :
    c.next t m =
      { c with fleet := (c.fleet.handle t m.time event).1, log := c.noted t m.time event } := by
  simp only [next, hhappens]

/-- What is seen after an event of a link, as far as the fleet goes. -/
theorem seen_link {k : Endpoint} {event : LinkEvent} {entry entry' : FleetEntry} {w : Nat}
    (hhappens : m.occurrence = .event (.link k event)) (hfound : c.fleet.find? k = some entry)
    (htouched : Fleet.Touched k entry' w c.fleet (c.fleet.onLink t m.time k event).1)
    (e : Endpoint) :
    (c.next t m).view e =
      if e = k then
        ⟨some entry', w, c.untold k,
          note (c.log k) entry.link.id (entry.link.deeds t.link m.time event), c.fleet.active⟩
      else c.view e := by
  have hfleet : (c.next t m).fleet = (c.fleet.onLink t m.time k event).1 := by
    rw [next_event hhappens, Fleet.handle]
  have huntold : (c.next t m).untold = Function.update c.untold k (c.untold k) := by
    rw [next_event hhappens, Function.update_eq_self]
  have hlog : (c.next t m).log = Function.update c.log k
      (note (c.log k) entry.link.id (entry.link.deeds t.link m.time event)) := by
    simp only [next_event hhappens, noted, hfound]
  exact seen_of_touched (hfleet ▸ htouched) huntold hlog e

theorem fate_link {k : Endpoint} {event : LinkEvent} {entry : FleetEntry}
    (hhappens : m.occurrence = .event (.link k event)) (hfound : c.fleet.find? k = some entry)
    (hsound : entry.link.Sound) (hrunning : c.fleet.shuttingDown = false) (first past : Nat)
    (e : Endpoint) : Fate t first past m e (c.view e) ((c.next t m).view e) := by
  have hsilent : m.broadcast? = none := by simp [Moment.broadcast?, hhappens]
  have hcourse := hsound.course t.link m.time event
  generalize hway : entry.link.handle t.link m.time event = r at hcourse
  cases hcourse with
  | quiet hcalm hclosed hopened =>
    subst hway
    have htouched := Fleet.touched_onLink_quiet t m.time hfound hcalm
    refine fate_of_seen hsilent (seen_link hhappens hfound htouched) ?_ e
    exact .moved hhappens hfound hcalm hclosed hopened
  | announced hevent_eq hcalm =>
    subst hevent_eq
    have htouched := Fleet.touched_onLink_announced t m.time hfound hway hcalm
    refine fate_of_seen hsilent (seen_link hhappens hfound htouched) ?_ e
    exact .announced hhappens hfound hway hcalm
  | @failed kind message =>
    have hno_deeds : entry.link.deeds t.link m.time event = [] := by
      simp [Link.deeds, Link.takes, hway, Link.fail, Link.close, Notice.deed?]
    have htouched := Fleet.touched_onLink_failed t m.time hfound hrunning hway
    refine fate_of_seen hsilent (seen_link hhappens hfound htouched) ?_ e
    rw [hno_deeds, note, List.append_nil, Function.update_eq_self]
    exact .failed hhappens hfound ⟨kind, message, hway⟩

theorem fate_lapse {k : Endpoint} {event : LinkEvent} {entry : FleetEntry}
    (hhappens : m.occurrence = .lapse k event) (hfound : c.fleet.find? k = some entry)
    (hsound : entry.link.Sound) (first past : Nat) (e : Endpoint) :
    Fate t first past m e (c.view e) ((c.next t m).view e) := by
  have hsilent : m.broadcast? = none := by simp [Moment.broadcast?, hhappens]
  have hafter : c.next t m = c.lapse t m.time k entry event := by
    simp only [next, hhappens, hfound]
  unfold lapse at hafter
  dsimp only at hafter
  split at hafter
  case isTrue htold =>
    obtain ⟨kind, message, hway⟩ := hsound.of_failed htold
    rw [hway] at hafter
    have htouched := Fleet.touched_put c.fleet k { entry with link := entry.link.close }
    have hfleet : (c.next t m).fleet = c.fleet.put k { entry with link := entry.link.close } := by
      rw [hafter]; rfl
    have huntold : (c.next t m).untold =
        Function.update c.untold k (c.untold k ++ [entry.link.id]) := by rw [hafter]; rfl
    have hlog : (c.next t m).log = Function.update c.log k (c.log k) := by
      rw [hafter, Function.update_eq_self]
    refine fate_of_seen hsilent (seen_of_touched (hfleet ▸ htouched) huntold hlog) ?_ e
    exact .lapsed hhappens hfound
  case isFalse => exact hafter.symm ▸ .kept hsilent

theorem fate_report {k : Endpoint} {id : Nat} {untold : List Nat}
    (hhappens : m.occurrence = .event (.reportError id k) ∧ untold = c.untold k ∨
      m.occurrence = .told k id ∧ untold = (c.untold k).erase id)
    (hfleet : (c.next t m).fleet = c.fleet.onError t m.time id k)
    (huntold_eq : (c.next t m).untold = Function.update c.untold k untold)
    (hlog : (c.next t m).log = c.log) (hrunning : c.fleet.shuttingDown = false) (first past : Nat)
    (e : Endpoint) : Fate t first past m e (c.view e) ((c.next t m).view e) := by
  have hsilent : m.broadcast? = none := by
    obtain ⟨hevent, -⟩ | ⟨hevent, -⟩ := hhappens <;> simp [Moment.broadcast?, hevent]
  have hlog : (c.next t m).log = Function.update c.log k (c.log k) := by
    rw [hlog, Function.update_eq_self]
  by_cases hfresh : ∃ entry, c.fleet.find? k = some entry ∧ entry.link.id = id ∧
      entry.reconnecting = false
  · obtain ⟨entry, hfound, rfl, hnews⟩ := hfresh
    have htouched := Fleet.touched_onError t m.time hfound hnews hrunning
    refine fate_of_seen hsilent (seen_of_touched (hfleet ▸ htouched) huntold_eq hlog) ?_ e
    exact .reported (hhappens.imp And.left And.left) hfound hnews
  · have hsame : c.fleet.onError t m.time id k = c.fleet := by
      by_cases hcurrent : c.fleet.Current k id
      · obtain ⟨entry, hfound, hown⟩ := hcurrent
        refine Fleet.onError_of_reconnecting t m.time hfound ?_
        by_contra hnews
        exact hfresh ⟨entry, hfound, hown, by simpa using hnews⟩
      · exact Fleet.onError_of_not_current t m.time hcurrent
    by_cases hhere : e = k
    · subst hhere
      have hseen : (c.next t m).view e = { c.view e with untold := untold } := by
        simp [view, hfleet, hsame, huntold_eq, hlog]
      rw [hseen]
      obtain ⟨hevent, rfl⟩ | ⟨hevent, rfl⟩ := hhappens
      · exact .kept hsilent
      · refine .ignored hevent ?_
        intro entry hfound hown
        by_contra hnews
        exact hfresh ⟨entry, hfound, hown, by simpa using hnews⟩
    · have hseen : (c.next t m).view e = c.view e := by
        simp [view, hfleet, hsame, huntold_eq, hlog, hhere]
      exact hseen ▸ .kept hsilent

theorem fate_reportConnected {k : Endpoint} {id : Nat}
    (hhappens : m.occurrence = .event (.reportConnected id k)) (first past : Nat) (e : Endpoint) :
    Fate t first past m e (c.view e) ((c.next t m).view e) := by
  have hsilent : m.broadcast? = none := by simp [Moment.broadcast?, hhappens]
  have hfleet : (c.next t m).fleet = c.fleet.onConnected id k := by
    rw [next_event hhappens, Fleet.handle]
  have huntold : (c.next t m).untold = Function.update c.untold k (c.untold k) := by
    rw [next_event hhappens, Function.update_eq_self]
  by_cases hcurrent : c.fleet.Current k id
  · obtain ⟨entry, hfound, rfl⟩ := hcurrent
    have hlog : (c.next t m).log =
        Function.update c.log k (note (c.log k) entry.link.id [.greeted]) := by
      simp [next_event hhappens, noted, hfound]
    have htouched := Fleet.touched_onConnected hfound
    refine fate_of_seen hsilent (seen_of_touched (hfleet ▸ htouched) huntold hlog) ?_ e
    exact .answered hhappens hfound
  · have hlog : (c.next t m).log = c.log := by
      simp only [next_event hhappens, noted]
      split
      case h_1 entry hfound =>
        rw [if_neg]
        intro hown
        exact hcurrent ⟨entry, hfound, hown⟩
      case h_2 => rfl
    have hseen : (c.next t m).view e = c.view e := by
      simp [view, hfleet, Fleet.onConnected_of_not_current hcurrent, huntold, hlog]
    exact hseen ▸ .kept hsilent

theorem fate_reconnect {k : Endpoint} (hhappens : m.occurrence = .event (.reconnect k))
    (hrunning : c.fleet.shuttingDown = false) (e : Endpoint) :
    Fate t c.fleet.nextId (c.next t m).fleet.nextId m e (c.view e) ((c.next t m).view e) := by
  have hsilent : m.broadcast? = none := by simp [Moment.broadcast?, hhappens]
  have hafter : c.next t m = { c with fleet := c.fleet.onReconnect k } := by
    rw [next_event hhappens]; rfl
  obtain hnone_due | hdue := Nat.eq_zero_or_pos (c.fleet.waiting k)
  · rw [hafter, Fleet.onReconnect_of_not_waiting hnone_due]
    exact .kept hsilent
  · obtain ⟨htouched, hnumbered⟩ := Fleet.touched_onReconnect hdue hrunning
    have huntold : (c.next t m).untold = Function.update c.untold k (c.untold k) := by
      rw [hafter, Function.update_eq_self]
    have hlog : (c.next t m).log = Function.update c.log k (c.log k) := by
      rw [hafter, Function.update_eq_self]
    have hfleet : (c.next t m).fleet = c.fleet.onReconnect k := by rw [hafter]
    refine fate_of_seen hsilent (seen_of_touched (hfleet ▸ htouched) huntold hlog) ?_ e
    exact .replaced hhappens hdue (hfleet ▸ hnumbered)

theorem fate_startAll {texts : List String} {port : UInt16}
    (hhappens : m.occurrence = .event (.startAll texts port)) (e : Endpoint) :
    Fate t c.fleet.nextId (c.next t m).fleet.nextId m e (c.view e) ((c.next t m).view e) := by
  have hafter : c.next t m = { c with fleet := c.fleet.startAll texts port } := by
    rw [next_event hhappens]; rfl
  have hadded := Fleet.added_startAll c.fleet texts port
  have hwaiting : (c.fleet.startAll texts port).waiting e = c.fleet.waiting e := by
    rw [Fleet.waiting, hadded.pending, Fleet.waiting]
  obtain hsame | ⟨habsent, ⟨text, hlisted, hwritten⟩, id, hnew, hnumbered, hfound⟩ := hadded.entry e
  · have hseen : (c.next t m).view e = c.view e := by
      simp [hafter, view, hsame, hwaiting, hadded.active]
    exact hseen ▸ .kept (by simp [Moment.broadcast?, hhappens])
  · have hseen : (c.next t m).view e = { c.view e with entry := some (.fresh id e) } := by
      simp [hafter, view, hfound, hwaiting, hadded.active]
    exact hseen ▸ .added hhappens hlisted hwritten habsent hnew (hafter ▸ hnumbered)

/-- A moment does one of these things to every endpoint. -/
theorem next_fate (hrunning : c.fleet.shuttingDown = false)
    (hstays : m.occurrence ≠ .event .shutdown)
    (hsound : ∀ e entry, c.fleet.find? e = some entry → entry.link.Sound) (e : Endpoint) :
    Fate t c.fleet.nextId (c.next t m).fleet.nextId m e (c.view e) ((c.next t m).view e) := by
  cases hhappens : m.occurrence with
  | event event =>
    have hafter := next_event (t := t) (c := c) hhappens
    cases event with
    | startAll texts port => exact fate_startAll hhappens e
    | broadcast request interval =>
      have hseen : (c.next t m).view e =
          { c.view e with
            entry := (c.fleet.find? e).map (·.asked request interval)
            active := some request } := by
        rw [hafter, ← Fleet.find?_broadcast]; rfl
      exact hseen ▸ .asked hhappens
    | clearActive =>
      have hseen : (c.next t m).view e = { c.view e with active := none } := by rw [hafter]; rfl
      exact hseen ▸ .cleared hhappens
    | shutdown => exact absurd hhappens hstays
    | reportConnected id k => exact fate_reportConnected hhappens _ _ e
    | reportError id k =>
      have huntold : (c.next t m).untold = Function.update c.untold k (c.untold k) := by
        rw [hafter, Function.update_eq_self]
      exact fate_report (.inl ⟨hhappens, rfl⟩) (by rw [hafter]; rfl) huntold (by rw [hafter]; rfl)
        hrunning _ _ e
    | reportProof challenge d =>
      have hseen : (c.next t m).view e = c.view e := by rw [hafter]; rfl
      exact hseen ▸ .kept (by simp [Moment.broadcast?, hhappens])
    | reconnect k => exact fate_reconnect hhappens hrunning e
    | link k event =>
      cases hfound : c.fleet.find? k with
      | none =>
        have hsame : c.next t m = c := by simp [hafter, Fleet.handle, Fleet.onLink, noted, hfound]
        exact hsame.symm ▸ .kept (by simp [Moment.broadcast?, hhappens])
      | some entry => exact fate_link hhappens hfound (hsound k entry hfound) hrunning _ _ e
  | lapse k event =>
    cases hfound : c.fleet.find? k with
    | none =>
      have hsame : c.next t m = c := by simp [next, hhappens, hfound]
      exact hsame.symm ▸ .kept (by simp [Moment.broadcast?, hhappens])
    | some entry => exact fate_lapse hhappens hfound (hsound k entry hfound) _ _ e
  | told k id =>
    by_cases hwaits : id ∈ c.untold k
    · have hafter : c.next t m =
          { c with
            fleet := c.fleet.onError t m.time id k
            untold := Function.update c.untold k ((c.untold k).erase id) } := by
        simp only [next, hhappens, hwaits, if_true]; rfl
      exact fate_report (.inr ⟨hhappens, rfl⟩) (by rw [hafter]) (by rw [hafter]) (by rw [hafter])
        hrunning _ _ e
    · have hsame : c.next t m = c := by simp [next, hhappens, hwaits]
      exact hsame.symm ▸ .kept (by simp [Moment.broadcast?, hhappens])

end Chronicle

end PlotMiner.Timelord
