import PlotMiner.Proofs.Timelord.Handover
import PlotMiner.Proofs.Timelord.Lifecycle

/-!
# Fleets that have been shut down

A shutdown closes every link, and nothing that happens later opens one, makes one or hands a request
to one, as long as no endpoints are started. Failures may still be reported, also those of links
that the shutdown itself has closed, and delays that were running may pass: they change what is
known of an endpoint, but not its link.
-/

namespace PlotMiner.Timelord

namespace Fleet

variable {f f' f'' : Fleet} {k : Endpoint} {entry : FleetEntry}

def Every (P : Link → Prop) (f : Fleet) : Prop :=
  ∀ e entry, f.find? e = some entry → P entry.link

theorem Every.put {P : Link → Prop} (h : f.Every P) (k : Endpoint) (hnew : P entry.link) :
    (f.put k entry).Every P := by
  intro e other hfound
  rw [find?_put] at hfound
  split at hfound
  case isTrue =>
    cases hfound
    exact hnew
  case isFalse => exact h e other hfound

/-- What holds of a link that is started, and is kept by all that is done to a link, holds of every
link of a fleet. -/
theorem Every.handle {P : Link → Prop} (t : FleetTimings) (now : Nat)
    (hstart : ∀ id e, P (Link.new id e).start)
    (hsend : ∀ l request interval, P l → P (l.send request interval))
    (hexit : ∀ l : Link, P l → P l.exit)
    (hhandle : ∀ (l : Link) event, P l → P (l.handle t.link now event).1)
    (event : FleetEvent) (h : f.Every P) : (f.handle t now event).1.Every P := by
  have hrespects : Respects (fun _ _ => True) fun f f' => f.Every P → f'.Every P := {
    refl := fun _ h => h
    trans := fun hfirst hsecond h => hsecond (hfirst h)
    connect := fun _ k h => Every.put h k (hstart _ k)
    answer := fun hfound _ h => h.put _ (hsend _ _ _ (h _ _ hfound))
    lose := fun hfound h => h.put _ (hexit _ (h _ _ hfound))
    pending := fun _ _ h => h
    record := fun _ _ _ _ h => h }
  refine hrespects.handle t now f event (fun _ _ _ => trivial) ?_ (fun _ h => h) ?_ ?_
  · intro request n _ h e entry hfound
    rw [find?_broadcast] at hfound
    obtain ⟨old, hthere, rfl⟩ := Option.map_eq_some_iff.1 hfound
    unfold FleetEntry.asked
    split
    · exact h e old hthere
    · exact hsend _ _ _ (h e old hthere)
  · intro _ h e entry hfound
    rw [find?_shutdown] at hfound
    obtain ⟨old, hthere, rfl⟩ := Option.map_eq_some_iff.1 hfound
    exact hexit _ (h e old hthere)
  · refine of_driven t now f event h ?_
    intro k e entry _ hfound
    exact h.put k (hhandle _ _ (h k entry hfound))

/-- The endpoints have the links that they had, no link is made, and no delay begins. -/
structure SameLinks (f f' : Fleet) : Prop where
  numbers : f'.nextId = f.nextId
  stopped : f'.shuttingDown = f.shuttingDown
  pending : f'.pending.Sublist f.pending
  link : ∀ e, (f'.find? e).map FleetEntry.link = (f.find? e).map FleetEntry.link

namespace SameLinks

theorem refl (f : Fleet) : SameLinks f f := ⟨rfl, rfl, List.Sublist.refl _, fun _ => rfl⟩

theorem trans (h : SameLinks f f') (h' : SameLinks f' f'') : SameLinks f f'' where
  numbers := h'.numbers.trans h.numbers
  stopped := h'.stopped.trans h.stopped
  pending := h'.pending.trans h.pending
  link e := (h'.link e).trans (h.link e)

theorem put {entry' : FleetEntry} (hfound : f.find? k = some entry)
    (hsame : entry'.link = entry.link) : SameLinks f (f.put k entry') where
  numbers := rfl
  stopped := rfl
  pending := List.Sublist.refl _
  link e := by
    rw [find?_put]
    split
    case isTrue hhere => rw [hhere, hfound, Option.map_some, Option.map_some, hsame]
    case isFalse => rfl

theorem every {P : Link → Prop} (h : SameLinks f f') (hall : f.Every P) : f'.Every P := by
  intro e entry hfound
  have hsame := h.link e
  rw [hfound, Option.map_some] at hsame
  obtain ⟨old, hthere, hlink⟩ := Option.map_eq_some_iff.1 hsame.symm
  exact hlink ▸ hall e old hthere

end SameLinks

structure Stopped (f : Fleet) : Prop where
  stopped : f.shuttingDown = true
  sound : f.Every Link.Sound
  closed : f.Every (·.state = .closed)

namespace Stopped

theorem same (h : f.Stopped) (hsame : SameLinks f f') : f'.Stopped :=
  ⟨hsame.stopped.trans h.stopped, hsame.every h.sound, hsame.every h.closed⟩

theorem onConnected (h : f.Stopped) (id : Nat) (k : Endpoint) :
    SameLinks f (f.onConnected id k) := by
  unfold Fleet.onConnected
  split
  case h_1 entry request hfound hactive =>
    split
    · exact .put hfound (Link.send_of_closed (h.closed k entry hfound) _ _)
    · exact .refl f
  case h_2 => exact .refl f

variable (t : FleetTimings) (now : Nat)

theorem onError (h : f.Stopped) (id : Nat) (k : Endpoint) :
    SameLinks f (f.onError t now id k) := by
  unfold Fleet.onError
  split
  case h_1 => exact .refl f
  case h_2 entry hfound =>
    split
    · have hstopped : (f.put k ⟨entry.link.exit, true⟩).shuttingDown = true := h.stopped
      simp only [hstopped, if_true]
      exact .put hfound (Link.exit_of_closed (h.closed k entry hfound))
    · exact .refl f

theorem onNotices (h : f.Stopped) (id : Nat) (k : Endpoint) (ns : List Notice) :
    SameLinks f (ns.foldl (onNotice t now id k) f) := by
  induction ns generalizing f with
  | nil => exact .refl f
  | cons n rest ih =>
    have hfirst : SameLinks f (onNotice t now id k f n) := by
      cases n with
      | connected => exact h.onConnected id k
      | proof challenge d => exact ⟨rfl, rfl, List.Sublist.refl _, fun _ => rfl⟩
      | failed kind message => exact h.onError t now id k
      | wrote frame => exact .refl f
    exact hfirst.trans (ih (h.same hfirst))

theorem onReconnect (h : f.Stopped) (k : Endpoint) : SameLinks f (f.onReconnect k) := by
  unfold Fleet.onReconnect
  split
  case h_1 => exact .refl f
  case h_2 r _ =>
    simp only [h.stopped, if_true]
    exact ⟨rfl, h.stopped.symm, List.erase_sublist, fun _ => rfl⟩

theorem broadcast (h : f.Stopped) (request : Calc) (interval : UInt64) :
    SameLinks f (f.broadcast request interval) where
  numbers := rfl
  stopped := rfl
  pending := List.Sublist.refl _
  link e := by
    rw [find?_broadcast, Option.map_map]
    apply Option.map_congr
    intro entry hfound
    show (entry.asked request interval).link = entry.link
    unfold FleetEntry.asked
    split
    · rfl
    · exact Link.send_of_closed (h.closed e entry hfound) _ _

theorem shutdown (h : f.Stopped) : SameLinks f f.shutdown where
  numbers := rfl
  stopped := h.stopped.symm
  pending := List.Sublist.refl _
  link e := by
    rw [find?_shutdown, Option.map_map]
    apply Option.map_congr
    intro entry hfound
    exact Link.exit_of_closed (h.closed e entry hfound)

theorem onLink (h : f.Stopped) (hfound : f.find? k = some entry) (event : LinkEvent) :
    SameLinks (f.put k { entry with link := (entry.link.handle t.link now event).1 })
        (f.onLink t now k event).1 ∧
      (f.onLink t now k event).1.Stopped := by
  have hsound := h.sound k entry hfound
  have hput : (f.put k { entry with link := (entry.link.handle t.link now event).1 }).Stopped :=
    ⟨h.stopped, h.sound.put k (hsound.handle t.link now event),
      h.closed.put k (hsound.closed_handle (h.closed k entry hfound) t.link now event)⟩
  rw [onLink_of_found t now hfound]
  have hsame := hput.onNotices t now entry.link.id k (entry.link.handle t.link now event).2
  exact ⟨hsame, hput.same hsame⟩

/-- Only an event of a link changes a link. -/
theorem handle (h : f.Stopped) {event : FleetEvent}
    (hunstarted : ∀ texts port, event ≠ .startAll texts port)
    (houtside : ∀ k linkEvent, event ≠ .link k linkEvent) :
    SameLinks f (f.handle t now event).1 := by
  cases event with
  | startAll texts port => exact absurd rfl (hunstarted texts port)
  | broadcast request interval => exact h.broadcast request interval
  | clearActive => exact ⟨rfl, rfl, List.Sublist.refl _, fun _ => rfl⟩
  | shutdown => exact h.shutdown
  | reportConnected id k => exact h.onConnected id k
  | reportError id k => exact h.onError t now id k
  | reportProof challenge d => exact ⟨rfl, rfl, List.Sublist.refl _, fun _ => rfl⟩
  | reconnect k => exact h.onReconnect k
  | link k linkEvent => exact absurd rfl (houtside k linkEvent)

end Stopped

theorem stopped_shutdown (hsound : f.Every Link.Sound) : f.shutdown.Stopped := by
  refine ⟨rfl, ?_, ?_⟩
  · intro e entry hfound
    rw [find?_shutdown] at hfound
    obtain ⟨old, hthere, rfl⟩ := Option.map_eq_some_iff.1 hfound
    exact (hsound e old hthere).exit
  · intro e entry hfound
    rw [find?_shutdown] at hfound
    obtain ⟨old, hthere, rfl⟩ := Option.map_eq_some_iff.1 hfound
    exact (hsound e old hthere).exit_state

end Fleet

theorem handed_note_greeted (log : Nat → List LinkDeed) (id : Nat) (l : Link) :
    handed (note log id [.greeted]) l = handed log l := by
  have hnone_taken : [LinkDeed.greeted].filterMap LinkDeed.taken? = [] := rfl
  unfold handed
  by_cases hown : l.id = id
  · rw [hown, note_self, List.filterMap_append, hnone_taken, List.append_nil]
  · rw [note_of_ne hown]

theorem handed_exit (log : Nat → List LinkDeed) (l : Link) : handed log l.exit = handed log l := by
  unfold handed Link.exit
  split <;> simp

namespace Chronicle

/-- No link is made and no delay begins, every endpoint keeps its link, and no link is handed a
request. -/
structure Still (c c' : Chronicle) : Prop where
  numbers : c'.fleet.nextId = c.fleet.nextId
  pending : c'.fleet.pending.Sublist c.fleet.pending
  absent : ∀ e, c.fleet.find? e = none → c'.fleet.find? e = none
  kept : ∀ e entry, c.fleet.find? e = some entry → ∃ entry', c'.fleet.find? e = some entry' ∧
    entry'.link.id = entry.link.id ∧
    handed (c'.log e) entry'.link = handed (c.log e) entry.link

variable {t : FleetTimings} {c c' c'' : Chronicle} {m : Moment}

theorem Still.refl (c : Chronicle) : Still c c :=
  ⟨rfl, List.Sublist.refl _, fun _ habsent => habsent,
    fun _ entry hfound => ⟨entry, hfound, rfl, rfl⟩⟩

theorem Still.trans (h : Still c c') (h' : Still c' c'') : Still c c'' where
  numbers := h'.numbers.trans h.numbers
  pending := h'.pending.trans h.pending
  absent e habsent := h'.absent e (h.absent e habsent)
  kept e entry hfound := by
    obtain ⟨mid, hthere, hsame, hhanded⟩ := h.kept e entry hfound
    obtain ⟨last, hthere', hsame', hhanded'⟩ := h'.kept e mid hthere
    exact ⟨last, hthere', hsame'.trans hsame, hhanded'.trans hhanded⟩

/-- Where the links stay the same, it is enough to look at the logs. -/
theorem still_of_sameLinks (hsame : Fleet.SameLinks c.fleet c'.fleet)
    (hlogs : ∀ e l, handed (c'.log e) l = handed (c.log e) l) : Still c c' where
  numbers := hsame.numbers
  pending := hsame.pending
  absent e habsent := by
    have hlink := hsame.link e
    rw [habsent, Option.map_none, Option.map_eq_none_iff] at hlink
    exact hlink
  kept e entry hfound := by
    have hlink := hsame.link e
    rw [hfound, Option.map_some] at hlink
    obtain ⟨entry', hthere, hown⟩ := Option.map_eq_some_iff.1 hlink
    exact ⟨entry', hthere, congrArg Link.id hown, by rw [hlogs, hown]⟩

theorem sound_next (t : FleetTimings) (m : Moment) (h : c.fleet.Every Link.Sound) :
    (c.next t m).fleet.Every Link.Sound := by
  have hhandle (event : FleetEvent) : (c.fleet.handle t m.time event).1.Every Link.Sound :=
    h.handle t m.time Link.sound_start
      (fun _ request interval hsound => hsound.send request interval)
      (fun _ hsound => hsound.exit) (fun _ e hsound => hsound.handle t.link m.time e) event
  unfold next
  split
  case h_1 event _ => exact hhandle event
  case h_2 e event _ =>
    split
    case h_1 entry hfound =>
      unfold lapse
      dsimp only
      split
      · exact h.put e ((h e entry hfound).handle t.link m.time event)
      · exact h
    case h_2 => exact h
  case h_3 e id _ =>
    split
    · exact hhandle (.reportError id e)
    · exact h

theorem handed_noted (t : FleetTimings) (now : Nat) (c : Chronicle) {event : FleetEvent}
    (houtside : ∀ k linkEvent, event ≠ .link k linkEvent) (e : Endpoint) (l : Link) :
    handed (c.noted t now event e) l = handed (c.log e) l := by
  cases event with
  | link k linkEvent => exact absurd rfl (houtside k linkEvent)
  | reportConnected id k =>
    simp only [noted]
    cases c.fleet.find? k with
    | none => rfl
    | some entry =>
      dsimp only
      split
      · by_cases hhere : e = k
        · rw [hhere, Function.update_self, handed_note_greeted]
        · rw [Function.update_of_ne hhere]
      · rfl
  | _ => rfl

theorem still_put {k : Endpoint} {entry entry' : FleetEntry} {log : Endpoint → Nat → List LinkDeed}
    (untold : Endpoint → List Nat) (hfound : c.fleet.find? k = some entry)
    (hsame : entry'.link.id = entry.link.id)
    (hkept : handed (log k) entry'.link = handed (c.log k) entry.link)
    (hothers : ∀ e ≠ k, log e = c.log e) : Still c ⟨c.fleet.put k entry', untold, log⟩ where
  numbers := rfl
  pending := List.Sublist.refl _
  absent e habsent := by
    have hother : e ≠ k := by
      rintro rfl
      cases hfound.symm.trans habsent
    rw [Fleet.find?_put, if_neg hother, habsent]
  kept e old hthere := by
    rw [Fleet.find?_put]
    split
    case isTrue hhere =>
      subst hhere
      cases hfound.symm.trans hthere
      exact ⟨entry', rfl, hsame, hkept⟩
    case isFalse hother => exact ⟨old, hthere, rfl, congrArg (handed · old.link) (hothers e hother)⟩

theorem still_link (hstopped : c.fleet.Stopped) {k : Endpoint} {event : LinkEvent}
    (hhappens : m.occurrence = .event (.link k event)) :
    (c.next t m).fleet.Stopped ∧ Still c (c.next t m) := by
  have hafter := next_event (t := t) (c := c) hhappens
  cases hfound : c.fleet.find? k with
  | none =>
    have hsame : c.next t m = c := by simp [hafter, Fleet.handle, Fleet.onLink, noted, hfound]
    rw [hsame]
    exact ⟨hstopped, .refl c⟩
  | some entry =>
    obtain ⟨hsame, hstopped'⟩ := hstopped.onLink t m.time hfound event
    have hfleet : (c.next t m).fleet = (c.fleet.onLink t m.time k event).1 := by
      rw [hafter, Fleet.handle]
    have hlog : (c.next t m).log = Function.update c.log k
        (note (c.log k) entry.link.id (entry.link.deeds t.link m.time event)) := by
      simp only [hafter, noted, hfound]
    have hmoved : Still c
        ⟨c.fleet.put k { entry with link := (entry.link.handle t.link m.time event).1 },
          (c.next t m).untold, (c.next t m).log⟩ := by
      apply still_put _ hfound
      · exact Link.handle_id ..
      · rw [hlog, Function.update_self, handed_handle]
      · intro e hother
        rw [hlog, Function.update_of_ne hother]
    rw [← hfleet] at hsame hstopped'
    exact ⟨hstopped', hmoved.trans (still_of_sameLinks hsame fun _ _ => rfl)⟩

theorem still_lapse (hstopped : c.fleet.Stopped) {k : Endpoint} {event : LinkEvent}
    {entry : FleetEntry} (hfound : c.fleet.find? k = some entry) (now : Nat) :
    (c.lapse t now k entry event).fleet.Stopped ∧ Still c (c.lapse t now k entry event) := by
  have hsound := hstopped.sound k entry hfound
  unfold lapse
  dsimp only
  split
  case isTrue htold =>
    obtain ⟨kind, message, hway⟩ := hsound.of_failed htold
    have hclosed := hsound.handle t.link now event
    rw [hway] at hclosed ⊢
    refine ⟨⟨hstopped.stopped, hstopped.sound.put k hclosed, hstopped.closed.put k rfl⟩, ?_⟩
    exact still_put _ hfound rfl rfl fun _ _ => rfl
  case isFalse => exact ⟨hstopped, .refl c⟩

theorem still_next (hstopped : c.fleet.Stopped)
    (hunstarted : ∀ texts port, m.occurrence ≠ .event (.startAll texts port)) :
    (c.next t m).fleet.Stopped ∧ Still c (c.next t m) := by
  cases hhappens : m.occurrence with
  | event event =>
    by_cases hinside : ∃ k linkEvent, event = .link k linkEvent
    · obtain ⟨k, linkEvent, rfl⟩ := hinside
      exact still_link hstopped hhappens
    · have houtside : ∀ k linkEvent, event ≠ .link k linkEvent := by
        intro k linkEvent hsame
        exact hinside ⟨k, linkEvent, hsame⟩
      have hsame : Fleet.SameLinks c.fleet (c.fleet.handle t m.time event).1 :=
        hstopped.handle t m.time
          (fun texts port hwrong => hunstarted texts port (hwrong ▸ hhappens)) houtside
      rw [next_event hhappens]
      exact ⟨hstopped.same hsame, still_of_sameLinks hsame (handed_noted t m.time c houtside)⟩
  | lapse k event =>
    cases hfound : c.fleet.find? k with
    | none =>
      have hsame : c.next t m = c := by simp only [next, hhappens, hfound]
      rw [hsame]
      exact ⟨hstopped, .refl c⟩
    | some entry =>
      have hafter : c.next t m = c.lapse t m.time k entry event := by
        simp only [next, hhappens, hfound]
      rw [hafter]
      exact still_lapse hstopped hfound m.time
  | told k id =>
    by_cases hwaits : id ∈ c.untold k
    · have hafter : c.next t m =
          { c with
            fleet := c.fleet.onError t m.time id k
            untold := Function.update c.untold k ((c.untold k).erase id) } := by
        simp only [next, hhappens, hwaits, if_true]
        rfl
      have hsame := hstopped.onError t m.time id k
      rw [hafter]
      exact ⟨hstopped.same hsame, still_of_sameLinks hsame fun _ _ => rfl⟩
    · have hsame : c.next t m = c := by simp only [next, hhappens, hwaits, if_false]
      rw [hsame]
      exact ⟨hstopped, .refl c⟩

theorem still_run {later : List Moment} (hstopped : c.fleet.Stopped)
    (hunstarted : ∀ m ∈ later, ∀ texts port, m.occurrence ≠ .event (.startAll texts port)) :
    (later.foldl (Chronicle.next t) c).fleet.Stopped ∧
      Still c (later.foldl (Chronicle.next t) c) := by
  induction later generalizing c with
  | nil => exact ⟨hstopped, .refl c⟩
  | cons m rest ih =>
    obtain ⟨hfirst, hothers⟩ := List.forall_mem_cons.1 hunstarted
    obtain ⟨hstopped', hstill⟩ := still_next (t := t) hstopped hfirst
    obtain ⟨hstopped'', hstill'⟩ := ih hstopped' hothers
    exact ⟨hstopped'', hstill.trans hstill'⟩

theorem still_shutdown (hhappens : m.occurrence = .event .shutdown) : Still c (c.next t m) := by
  rw [next_event hhappens]
  refine ⟨rfl, List.Sublist.refl _, ?_, ?_⟩
  · intro e habsent
    rw [Fleet.handle, Fleet.find?_shutdown, habsent, Option.map_none]
  · intro e entry hfound
    rw [Fleet.handle, Fleet.find?_shutdown, hfound]
    exact ⟨_, rfl, entry.link.exit_id, handed_exit (c.log e) entry.link⟩

end Chronicle

theorem sound_chronicle (t : FleetTimings) (ms : List Moment) :
    (chronicle t ms).fleet.Every Link.Sound := by
  induction ms using List.reverseRecOn with
  | nil => exact fun _ _ habsent => nomatch habsent
  | append_singleton ms m ih =>
    rw [chronicle_snoc]
    exact Chronicle.sound_next t m ih

/-- From a shutdown on, until endpoints are started again, no link is made and no delay begins, and
every endpoint keeps the link that it had. The link is closed: it accepts no request, and has been
handed what it had been handed before. -/
theorem shutdown_final (t : FleetTimings) (before later : List Moment) (now : Nat)
    (hunstarted : ∀ m ∈ later, ∀ texts port, m.occurrence ≠ .event (.startAll texts port)) :
    let c := chronicle t before
    let c' := chronicle t (before ++ ⟨now, .event .shutdown⟩ :: later)
    c'.fleet.nextId = c.fleet.nextId ∧
    c'.fleet.pending.Sublist c.fleet.pending ∧
    (∀ e, c.fleet.find? e = none → c'.fleet.find? e = none) ∧
    ∀ e entry, c.fleet.find? e = some entry →
      ∃ entry', c'.fleet.find? e = some entry' ∧ entry'.link.id = entry.link.id ∧
        entry'.link.state = .closed ∧
        (∀ request interval, entry'.link.send request interval = entry'.link) ∧
        handed (c'.log e) entry'.link = handed (c.log e) entry.link := by
  intro c c'
  have hstopped : (c.next t ⟨now, .event .shutdown⟩).fleet.Stopped :=
    Fleet.stopped_shutdown (sound_chronicle t before)
  obtain ⟨hstopped', hstill'⟩ := Chronicle.still_run (t := t) hstopped hunstarted
  rw [← chronicle_split] at hstopped' hstill'
  have hstill : c.Still c' := (Chronicle.still_shutdown rfl).trans hstill'
  refine ⟨hstill.numbers, hstill.pending, hstill.absent, ?_⟩
  intro e entry hfound
  obtain ⟨entry', hthere, hsame, hhanded⟩ := hstill.kept e entry hfound
  have hclosed := hstopped'.closed e entry' hthere
  exact ⟨entry', hthere, hsame, hclosed, Link.send_of_closed hclosed, hhanded⟩

/-- Two links, of which the first has failed and is to be replaced. -/
def halfFailed : List Moment :=
  [⟨0, .event (.startAll ["first", "second"] 19191)⟩,
    ⟨1, .event (.link ⟨"second", 19191⟩ .connected)⟩,
    ⟨2, .event (.link ⟨"first", 19191⟩ (.refused (.noAddress ⟨"first", 19191⟩)))⟩]

/-- After a shutdown the delay passes, the second link reports that it was ended and is said to be
connected, and a request is broadcast. -/
def lateEvents : List Moment :=
  [⟨3002, .event (.reconnect ⟨"first", 19191⟩)⟩, ⟨3003, .event (.reportError 1 ⟨"second", 19191⟩)⟩,
    ⟨3004, .event (.broadcast default 22)⟩, ⟨3005, .event (.reportConnected 1 ⟨"second", 19191⟩)⟩]

theorem shutdown_final_half_failed :
    let c := chronicle default halfFailed
    let c' := chronicle default (halfFailed ++ ⟨10, .event .shutdown⟩ :: lateEvents)
    (∀ m ∈ lateEvents, ∀ texts port, m.occurrence ≠ .event (.startAll texts port)) ∧
      c.fleet.pending = [⟨⟨"first", 19191⟩, 3002⟩] ∧ c'.fleet.nextId = 2 ∧
      ((c.fleet.find? ⟨"second", 19191⟩).map (·.link.state)) = some .connected ∧
      ∃ entry, c'.fleet.find? ⟨"second", 19191⟩ = some entry ∧ entry.link.id = 1 ∧
        entry.link.state = .closed ∧ handed (c'.log ⟨"second", 19191⟩) entry.link = [] := by
  intro c c'
  have hunstarted :
      ∀ m ∈ lateEvents, ∀ texts port, m.occurrence ≠ .event (.startAll texts port) := by
    simp [lateEvents]
  obtain ⟨hnumbers, -, -, hkept⟩ := shutdown_final default halfFailed lateEvents 10 hunstarted
  obtain ⟨entry, hfound, hsame, hclosed, -, hnone_handed⟩ := hkept ⟨"second", 19191⟩ _ rfl
  exact ⟨hunstarted, rfl, hnumbers, rfl, entry, hfound, hsame, hclosed, hnone_handed⟩

end PlotMiner.Timelord
