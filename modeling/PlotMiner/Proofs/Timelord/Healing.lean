import Mathlib.Data.List.Induction
import PlotMiner.Proofs.Timelord.Chronicle

/-!
# A fleet that heals

Whatever happens to a fleet that is not shut down, every endpoint keeps one link, and the fleet is
never left with a dead link for which nothing is under way: either the failure is on its way to the
fleet, or a delay is running after which the link is replaced. There is never more than one such
delay for an endpoint, and no link is replaced twice.
-/

namespace PlotMiner.Timelord

/-- The entry of an endpoint `e`, while `waiting` delays are running for it. -/
structure FleetEntry.Tended (past : Nat) (e : Endpoint) (waiting : Nat) (untold : List Nat)
    (entry : FleetEntry) : Prop where
  sound : entry.link.Sound
  numbered : entry.link.id < past
  addressed : entry.link.endpoint = e
  waits : waiting = if entry.reconnecting then 1 else 0
  dead : entry.reconnecting = true → entry.link.state = .closed
  reported : entry.link.state = .closed → entry.reconnecting = true ∨ entry.link.id ∈ untold

/-- What is always seen of an endpoint, while links are numbered below `past`. -/
structure View.Tended (past : Nat) (e : Endpoint) (v : View) : Prop where
  entry : ∀ entry, v.entry = some entry → entry.Tended past e v.waiting v.untold
  absent : v.entry = none → v.waiting = 0
  blank : ∀ id, past ≤ id → v.log id = []

theorem note_of_ne {log : Nat → List LinkDeed} {id other : Nat} (hapart : other ≠ id)
    (new : List LinkDeed) : note log id new other = log other :=
  Function.update_of_ne hapart ..

namespace FleetEntry.Tended

variable {past later waiting : Nat} {e : Endpoint} {untold : List Nat} {entry : FleetEntry}

theorem fresh {id : Nat} (hnumbered : id < past) : (FleetEntry.fresh id e).Tended past e 0 untold :=
  ⟨Link.sound_start id e, hnumbered, rfl, rfl, nofun, nofun⟩

theorem mono (h : entry.Tended past e waiting untold) (hle : past ≤ later) :
    entry.Tended later e waiting untold :=
  { h with numbered := Nat.lt_of_lt_of_le h.numbered hle }

theorem send (h : entry.Tended past e waiting untold) (request : Calc) (interval : Nat) :
    Tended past e waiting untold { entry with link := entry.link.send request interval } := by
  refine ⟨h.sound.send request interval, ?_, ?_, h.waits, ?_, ?_⟩
  · simpa using h.numbered
  · simpa using h.addressed
  · simpa using h.dead
  · simpa using h.reported

theorem asked (h : entry.Tended past e waiting untold) (request : Calc) (interval : UInt64) :
    (entry.asked request interval).Tended past e waiting untold := by
  unfold FleetEntry.asked
  split
  · exact h
  · exact h.send request _

theorem answered (h : entry.Tended past e waiting untold) (active : Option Calc) :
    (entry.answered active).Tended past e waiting untold := by
  unfold FleetEntry.answered
  split
  · exact h.send _ _
  · exact h

theorem waiting_of_closed {link : Link} (hsound : link.Sound) (hnumbered : link.id < past)
    (haddressed : link.endpoint = e) (hclosed : link.state = .closed) :
    (⟨link, true⟩ : FleetEntry).Tended past e 1 untold :=
  ⟨hsound, hnumbered, haddressed, rfl, fun _ => hclosed, fun _ => .inl rfl⟩

end FleetEntry.Tended

/-- A link that was there before has not been made just now, and does not stop to wait for its
successor. -/
theorem Fate.same_link {t : FleetTimings} {first past : Nat} {m : Moment} {e : Endpoint}
    {v v' : View} (hway : Fate t first past m e v v') {entry' : FleetEntry}
    (hfound' : v'.entry = some entry') (hold : entry'.link.id < first) :
    ∃ entry, v.entry = some entry ∧ entry.link.id = entry'.link.id ∧
      (entry.reconnecting = true → entry'.reconnecting = true) := by
  cases hway with
  | kept | cleared | ignored => exact ⟨entry', hfound', rfl, id⟩
  | asked =>
    obtain ⟨entry, hfound, rfl⟩ := Option.map_eq_some_iff.1 hfound'
    exact ⟨entry, hfound, by simp⟩
  | added hevent hlisted hwritten habsent hnew hnumbered =>
    cases hfound'
    exact absurd hold (Nat.not_lt.2 hnew)
  | replaced hevent hdue hnumbered =>
    cases hfound'
    exact absurd hold (Nat.lt_irrefl _)
  | answered hevent hfound =>
    cases hfound'
    exact ⟨_, hfound, by simp⟩
  | reported hevent hfound hnews =>
    cases hfound'
    exact ⟨_, hfound, by simp⟩
  | moved hhappens hfound hcalm hclosed =>
    cases hfound'
    exact ⟨_, hfound, by simp [Link.handle_id]⟩
  | announced hhappens hfound hway hcalm =>
    cases hfound'
    exact ⟨_, hfound, by simp⟩
  | failed hhappens hfound hway =>
    cases hfound'
    exact ⟨_, hfound, rfl, fun _ => rfl⟩
  | lapsed hhappens hfound =>
    cases hfound'
    exact ⟨_, hfound, rfl, id⟩

def Moment.Starts (m : Moment) (e : Endpoint) : Prop :=
  ∃ texts port, m.occurrence = .event (.startAll texts port) ∧
    ∃ text ∈ texts, Endpoint.parse text port = .ok e

namespace View.Tended

variable {t : FleetTimings} {first past : Nat} {m : Moment} {e : Endpoint} {v v' : View}

theorem waiting_le_one (h : v.Tended past e) : v.waiting ≤ 1 := by
  cases hfound : v.entry with
  | none => exact h.absent hfound ▸ Nat.zero_le 1
  | some entry =>
    rw [(h.entry entry hfound).waits]
    split
    · exact Nat.le_refl 1
    · exact Nat.zero_le 1

theorem blank_note (h : v.Tended first e) (hle : first ≤ past) {id : Nat} (hold : id < first)
    (new : List LinkDeed) (other : Nat) (hbeyond : past ≤ other) :
    note v.log id new other = [] := by
  have hapart : other ≠ id := by omega
  rw [note_of_ne hapart, h.blank other (Nat.le_trans hle hbeyond)]

theorem fate (h : v.Tended first e) (hle : first ≤ past) (hway : Fate t first past m e v v') :
    v'.Tended past e := by
  have hblank : ∀ id, past ≤ id → v.log id = [] := fun id hbeyond =>
    h.blank id (Nat.le_trans hle hbeyond)
  cases hway with
  | kept => exact ⟨fun entry hfound => (h.entry entry hfound).mono hle, h.absent, hblank⟩
  | cleared => exact ⟨fun entry hfound => (h.entry entry hfound).mono hle, h.absent, hblank⟩
  | asked =>
    refine ⟨?_, ?_, hblank⟩
    · intro entry hfound
      obtain ⟨before, hthere, rfl⟩ := Option.map_eq_some_iff.1 hfound
      exact ((h.entry before hthere).mono hle).asked ..
    · exact fun habsent => h.absent (Option.map_eq_none_iff.1 habsent)
  | added hevent hlisted hwritten habsent hnew hnumbered =>
    refine ⟨?_, nofun, hblank⟩
    rintro _ ⟨⟩
    exact h.absent habsent ▸ .fresh hnumbered
  | replaced hevent hdue hnumbered =>
    have hlast : v.waiting - 1 = 0 := by
      have := h.waiting_le_one
      omega
    refine ⟨?_, nofun, hblank⟩
    rintro _ ⟨⟩
    exact hlast ▸ .fresh hnumbered
  | answered hevent hfound =>
    have hbefore := h.entry _ hfound
    refine ⟨?_, nofun, h.blank_note hle hbefore.numbered _⟩
    rintro _ ⟨⟩
    exact (hbefore.mono hle).answered _
  | @ignored id hevent hknown =>
    refine ⟨?_, h.absent, hblank⟩
    intro entry hfound
    have hbefore := (h.entry entry hfound).mono hle
    refine { hbefore with reported := ?_ }
    intro hclosed
    obtain hwaits | huntold := hbefore.reported hclosed
    · exact .inl hwaits
    · by_cases hsame : entry.link.id = id
      · exact .inl (hknown entry hfound hsame)
      · exact .inr ((List.mem_erase_of_ne hsame).2 huntold)
  | reported hevent hfound hnews =>
    have hbefore := (h.entry _ hfound).mono hle
    have hnone_due : v.waiting = 0 := by simpa [hnews] using hbefore.waits
    refine ⟨?_, nofun, hblank⟩
    rintro _ ⟨⟩
    rw [hnone_due]
    exact .waiting_of_closed hbefore.sound.exit (by simpa using hbefore.numbered)
      (by simpa using hbefore.addressed) hbefore.sound.exit_state
  | moved hhappens hfound hcalm hclosed =>
    have hold := (h.entry _ hfound).numbered
    have hbefore := (h.entry _ hfound).mono hle
    refine ⟨?_, nofun, h.blank_note hle hold _⟩
    rintro _ ⟨⟩
    refine ⟨hbefore.sound.handle .., ?_, ?_, hbefore.waits, ?_, ?_⟩
    · simpa only [Link.handle_id] using hbefore.numbered
    · simpa only [Link.handle_endpoint] using hbefore.addressed
    · exact fun hwaits => hclosed.2 (hbefore.dead hwaits)
    · simpa only [Link.handle_id, hclosed] using hbefore.reported
  | @announced entry s new hhappens hfound hway hcalm =>
    have hold := (h.entry _ hfound).numbered
    have hbefore := (h.entry _ hfound).mono hle
    have hsound := hbefore.sound.handle t.link m.time .announced
    rw [hway] at hsound
    have hopened : FleetEntry.Tended past e v.waiting v.untold
        { entry with link := { entry.link with stage := .opened s } } :=
      ⟨hsound, hbefore.numbered, hbefore.addressed, hbefore.waits, hbefore.dead, hbefore.reported⟩
    refine ⟨?_, nofun, h.blank_note hle hold _⟩
    rintro _ ⟨⟩
    exact hopened.answered _
  | @failed entry event hhappens hfound hway =>
    have hbefore := (h.entry _ hfound).mono hle
    have hone : (if entry.reconnecting then v.waiting else v.waiting + 1) = 1 := by
      cases hknown : entry.reconnecting <;> simp [hbefore.waits, hknown]
    refine ⟨?_, nofun, hblank⟩
    rintro _ ⟨⟩
    rw [hone]
    exact .waiting_of_closed (Link.sound_of_closed rfl nofun) hbefore.numbered hbefore.addressed rfl
  | lapsed hhappens hfound =>
    have hbefore := (h.entry _ hfound).mono hle
    refine ⟨?_, nofun, hblank⟩
    rintro _ ⟨⟩
    exact ⟨Link.sound_of_closed rfl nofun, hbefore.numbered, hbefore.addressed, hbefore.waits,
      fun _ => rfl, fun _ => .inr (List.mem_append_right _ List.mem_cons_self)⟩

theorem same_or_replaced (h : v.Tended first e) (hway : Fate t first past m e v v')
    {entry : FleetEntry} (hfound : v.entry = some entry) :
    (∃ entry', v'.entry = some entry' ∧ entry'.link.id = entry.link.id) ∨
      m.occurrence = .event (.reconnect e) ∧ entry.reconnecting = true ∧ v.waiting = 1 ∧
        v'.entry = some (.fresh first e) ∧ v'.waiting = 0 := by
  cases hway with
  | kept | cleared | ignored => exact .inl ⟨entry, hfound, rfl⟩
  | asked =>
    exact .inl ⟨entry.asked .., Option.map_eq_some_iff.2 ⟨entry, hfound, rfl⟩, by simp⟩
  | added hevent hlisted hwritten habsent => cases hfound.symm.trans habsent
  | replaced hevent hdue hnumbered =>
    have hwaits := (h.entry entry hfound).waits
    cases hknown : entry.reconnecting with
    | true =>
      have hone : v.waiting = 1 := by simpa [hknown] using hwaits
      exact .inr ⟨hevent, rfl, hone, rfl, by simp [hone]⟩
    | false =>
      have hnone_due : v.waiting = 0 := by simpa [hknown] using hwaits
      exact absurd hdue (by omega)
  | answered hevent hfound' | announced hhappens hfound' hway hcalm =>
    cases hfound.symm.trans hfound'
    exact .inl ⟨_, rfl, by simp⟩
  | reported hevent hfound' hnews =>
    cases hfound.symm.trans hfound'
    exact .inl ⟨_, rfl, by simp⟩
  | moved hhappens hfound' =>
    cases hfound.symm.trans hfound'
    exact .inl ⟨_, rfl, Link.handle_id ..⟩
  | failed hhappens hfound' | lapsed hhappens hfound' =>
    cases hfound.symm.trans hfound'
    exact .inl ⟨_, rfl, rfl⟩

/-- An endpoint comes in by being started, and never goes. -/
theorem entry_ne_none_iff (h : v.Tended first e) (hway : Fate t first past m e v v')
    (hstarted : m.Starts e → v'.entry ≠ none) :
    v'.entry ≠ none ↔ v.entry ≠ none ∨ m.Starts e := by
  constructor
  · intro hthere
    cases hway with
    | kept | cleared | ignored => exact .inl hthere
    | asked => exact .inl fun habsent => hthere (by simp [habsent])
    | added hevent hlisted hwritten => exact .inr ⟨_, _, hevent, _, hlisted, hwritten⟩
    | replaced hevent hdue =>
      refine .inl fun habsent => ?_
      exact absurd (h.absent habsent) (Nat.ne_of_gt hdue)
    | answered _ hfound | reported _ hfound | moved _ hfound | announced _ hfound | failed _ hfound
    | lapsed _ hfound => exact .inl (hfound ▸ nofun)
  · rintro (hthere | hnow)
    · obtain ⟨entry, hfound⟩ := Option.ne_none_iff_exists'.1 hthere
      obtain ⟨entry', hfound', -⟩ | ⟨-, -, -, hfound', -⟩ := h.same_or_replaced hway hfound
      · simp [hfound']
      · simp [hfound']
    · exact hstarted hnow

end View.Tended

def Running (ms : List Moment) : Prop := ∀ m ∈ ms, m.occurrence ≠ .event .shutdown

namespace Chronicle

structure Tended (c : Chronicle) : Prop where
  running : c.fleet.shuttingDown = false
  once : (c.fleet.entries.map Prod.fst).Nodup
  view : ∀ e, (c.view e).Tended c.fleet.nextId e

theorem nodup_next (t : FleetTimings) (m : Moment) {c : Chronicle}
    (honce : (c.fleet.entries.map Prod.fst).Nodup) :
    ((c.next t m).fleet.entries.map Prod.fst).Nodup := by
  unfold next
  split
  · exact c.fleet.nodup_handle t m.time _ honce
  · split
    · unfold lapse
      dsimp only
      split
      · exact Fleet.nodup_putEntry _ _ _ honce
      · exact honce
    · exact honce
  · split
    · exact c.fleet.nodup_handle t m.time _ honce
    · exact honce

namespace Tended

variable {t : FleetTimings} {c : Chronicle} {m : Moment}

theorem fate (h : c.Tended) (t : FleetTimings) (hstays : m.occurrence ≠ .event .shutdown)
    (e : Endpoint) :
    Fate t c.fleet.nextId (c.next t m).fleet.nextId m e (c.view e) ((c.next t m).view e) :=
  next_fate h.running hstays (fun e entry hfound => ((h.view e).entry entry hfound).sound) e

theorem next (h : c.Tended) (t : FleetTimings) (hstays : m.occurrence ≠ .event .shutdown) :
    (c.next t m).Tended := by
  have hlasts := lasts_next t c hstays
  refine ⟨hlasts.running.trans h.running, nodup_next t m h.once, ?_⟩
  exact fun e => (h.view e).fate hlasts.numbers (h.fate t hstays e)

end Tended

theorem tended_start : start.Tended :=
  ⟨rfl, List.nodup_nil, fun _ => ⟨nofun, fun _ => rfl, fun _ _ => rfl⟩⟩

end Chronicle

theorem tended_chronicle (t : FleetTimings) {ms : List Moment} (hrunning : Running ms) :
    (chronicle t ms).Tended := by
  induction ms using List.reverseRecOn with
  | nil => exact Chronicle.tended_start
  | append_singleton ms m ih =>
    obtain ⟨hbefore, hstays⟩ := List.forall_mem_append.1 hrunning
    rw [chronicle_snoc]
    exact (ih hbefore).next t (hstays m List.mem_cons_self)

namespace View

variable {t : FleetTimings} {first past id : Nat} {m : Moment} {e : Endpoint} {v v' : View}

/-- The link with a number has been made; if it is still current, its endpoint waits for a new
one. -/
structure Doomed (id past : Nat) (v : View) : Prop where
  numbered : id < past
  waits : ∀ entry, v.entry = some entry → entry.link.id = id → entry.reconnecting = true

/-- The link with a number is not current any more. -/
structure Gone (id past : Nat) (v : View) : Prop where
  numbered : id < past
  absent : ∀ entry, v.entry = some entry → entry.link.id ≠ id

theorem Doomed.fate (h : v.Doomed id first) (hle : first ≤ past)
    (hway : Fate t first past m e v v') : v'.Doomed id past := by
  refine ⟨Nat.lt_of_lt_of_le h.numbered hle, ?_⟩
  rintro entry' hfound' rfl
  obtain ⟨entry, hfound, hsame, hwaits⟩ := hway.same_link hfound' h.numbered
  exact hwaits (h.waits entry hfound hsame)

theorem Gone.fate (h : v.Gone id first) (hle : first ≤ past) (hway : Fate t first past m e v v') :
    v'.Gone id past := by
  refine ⟨Nat.lt_of_lt_of_le h.numbered hle, ?_⟩
  rintro entry' hfound' rfl
  obtain ⟨entry, hfound, hsame, -⟩ := hway.same_link hfound' h.numbered
  exact h.absent entry hfound hsame

end View

namespace Chronicle

variable {t : FleetTimings} {c : Chronicle} {m : Moment} {e : Endpoint} {id : Nat}

theorem Tended.numbered (h : c.Tended) (hcurrent : c.fleet.Current e id) : id < c.fleet.nextId := by
  obtain ⟨entry, hfound, rfl⟩ := hcurrent
  exact ((h.view e).entry entry hfound).numbered

/-- What no moment breaks is never broken. The moments may be restricted. -/
theorem Tended.run (t : FleetTimings) {P : Nat → View → Prop} {later : List Moment}
    (hstep : ∀ {m first past v v'}, m ∈ later → v.Tended first e → first ≤ past →
      Fate t first past m e v v' → P first v → P past v')
    (hrunning : Running later) (h : c.Tended) (hnow : P c.fleet.nextId (c.view e)) :
    P (later.foldl (Chronicle.next t) c).fleet.nextId
      ((later.foldl (Chronicle.next t) c).view e) := by
  induction later generalizing c with
  | nil => exact hnow
  | cons m rest ih =>
    obtain ⟨hstays, hrest_running⟩ := List.forall_mem_cons.1 hrunning
    refine ih (fun hmem => hstep (List.mem_cons_of_mem _ hmem)) hrest_running (h.next t hstays) ?_
    exact hstep List.mem_cons_self (h.view e) (lasts_next t c hstays).numbers (h.fate t hstays e)
      hnow

/-- A failure of the link with a number is reported to the fleet. -/
def Reports (t : FleetTimings) (c : Chronicle) (m : Moment) (e : Endpoint) (id : Nat) : Prop :=
  m.occurrence = .event (.reportError id e) ∨
    m.occurrence = .told e id ∧ id ∈ c.untold e ∨
    ∃ entry event kind message, m.occurrence = .event (.link e event) ∧
      c.fleet.find? e = some entry ∧ entry.link.id = id ∧
      .failed kind message ∈ (entry.link.handle t.link m.time event).2

theorem waits_onError (h : c.Tended) (hcurrent : c.fleet.Current e id) (now : Nat) :
    ∃ entry, (c.fleet.onError t now id e).find? e = some entry ∧ entry.link.id = id ∧
      entry.reconnecting = true := by
  obtain ⟨entry, hfound, rfl⟩ := hcurrent
  cases hknown : entry.reconnecting with
  | true =>
    rw [Fleet.onError_of_reconnecting t now hfound hknown]
    exact ⟨entry, hfound, rfl, hknown⟩
  | false =>
    have htouched := Fleet.touched_onError t now hfound hknown h.running
    exact ⟨_, (htouched.find e).trans (if_pos rfl), by simp, rfl⟩

theorem Reports.waits (hreport : Reports t c m e id) (h : c.Tended)
    (hcurrent : c.fleet.Current e id) :
    ∃ entry, (c.next t m).fleet.find? e = some entry ∧ entry.link.id = id ∧
      entry.reconnecting = true := by
  obtain hhappens | ⟨hhappens, hwaits⟩ |
    ⟨entry, event, kind, message, hhappens, hfound, rfl, hfails⟩ :=
    hreport
  · have hafter : (c.next t m).fleet = c.fleet.onError t m.time id e := by
      rw [next_event hhappens]; rfl
    exact hafter ▸ waits_onError h hcurrent m.time
  · have hafter : (c.next t m).fleet = c.fleet.onError t m.time id e := by
      simp only [next, hhappens, hwaits, if_true]; rfl
    exact hafter ▸ waits_onError h hcurrent m.time
  · have hafter : (c.next t m).fleet = (c.fleet.onLink t m.time e event).1 := by
      rw [next_event hhappens]; rfl
    have hcourse := ((h.view e).entry entry hfound).sound.course t.link m.time event
    generalize hway : entry.link.handle t.link m.time event = r at hcourse hfails
    cases hcourse with
    | quiet hcalm => exact (hcalm _ hfails).elim
    | announced _ hcalm =>
      obtain hwrong | hmem := List.mem_cons.1 hfails
      · cases hwrong
      · exact (hcalm _ hmem).elim
    | failed =>
      have htouched := Fleet.touched_onLink_failed t m.time hfound h.running hway
      have hfound' : (c.next t m).fleet.find? e = some ⟨entry.link.close, true⟩ := by
        rw [hafter, htouched.find, if_pos rfl]
      exact ⟨_, hfound', rfl, rfl⟩

end Chronicle

theorem present_iff_started (t : FleetTimings) {ms : List Moment} (hrunning : Running ms)
    (e : Endpoint) :
    (chronicle t ms).fleet.find? e ≠ none ↔ ∃ m ∈ ms, m.Starts e := by
  induction ms using List.reverseRecOn with
  | nil => simp [chronicle, Chronicle.start, Fleet.find?, Fleet.empty]
  | append_singleton ms m ih =>
    obtain ⟨hbefore, hstays⟩ := List.forall_mem_append.1 hrunning
    have hstays := hstays m List.mem_cons_self
    have htended := tended_chronicle t hbefore
    rw [chronicle_snoc]
    have hstarted : m.Starts e → (((chronicle t ms).next t m).view e).entry ≠ none := by
      rintro ⟨texts, port, hhappens, hlisted⟩
      rw [Chronicle.next_event hhappens]
      exact (Fleet.added_startAll _ texts port).present e hlisted
    have hstep := (htended.view e).entry_ne_none_iff (htended.fate t hstays e) hstarted
    refine hstep.trans ?_
    simp only [List.mem_append, List.mem_singleton, or_and_right, exists_or, exists_eq_left]
    exact or_congr_left (ih hbefore)

/-- What holds of a fleet after the moments `ms`. -/
structure Healthy (t : FleetTimings) (ms : List Moment) : Prop where
  /-- The endpoints that were started are those with a link, and none has two. -/
  one_link (e : Endpoint) : (∃ m ∈ ms, m.Starts e) ↔
    ∃! entry, (e, entry) ∈ (chronicle t ms).fleet.entries
  /-- An endpoint that waits for a new link waits for one only, and no other endpoint waits. -/
  one_delay (e : Endpoint) (entry : FleetEntry)
    (hcurrent : (e, entry) ∈ (chronicle t ms).fleet.entries) :
    (entry.reconnecting = true ↔ (chronicle t ms).fleet.waiting e = 1) ∧
      (chronicle t ms).fleet.waiting e ≤ 1
  /-- A current link that is dead will be replaced, or the fleet is still to be told of it. -/
  attended (e : Endpoint) (entry : FleetEntry)
    (hcurrent : (e, entry) ∈ (chronicle t ms).fleet.entries)
    (hdead : entry.link.state = .closed) :
    entry.reconnecting = true ∨ entry.link.id ∈ (chronicle t ms).untold e
  /-- What a link reports that is not the current one changes nothing. -/
  foreign (e : Endpoint) (id now : Nat) (hother : ¬ (chronicle t ms).fleet.Current e id) :
    ((chronicle t ms).fleet.handle t now (.reportError id e)).1 = (chronicle t ms).fleet
  /-- From its first report on, as long as it is current, a failed link is closed and waits to be
  replaced. -/
  reported (before after : List Moment) (m : Moment) (hsplit : ms = before ++ m :: after)
    (e : Endpoint) (id : Nat) (hreport : (chronicle t before).Reports t m e id)
    (hcurrent : (chronicle t before).fleet.Current e id) (entry : FleetEntry)
    (hstill : (chronicle t ms).fleet.find? e = some entry) (hsame : entry.link.id = id) :
    entry.link.state = .closed ∧ entry.reconnecting = true ∧ (chronicle t ms).fleet.waiting e = 1
  /-- A link is only replaced by a new one when its delay has passed, and does not come back. -/
  replaced (before after : List Moment) (m : Moment) (hsplit : ms = before ++ m :: after)
    (e : Endpoint) (entry : FleetEntry)
    (hcurrent : (chronicle t before).fleet.find? e = some entry)
    (hgone : ¬ (chronicle t (before ++ [m])).fleet.Current e entry.link.id) :
    m.occurrence = .event (.reconnect e) ∧ entry.reconnecting = true ∧
      (chronicle t before).fleet.waiting e = 1 ∧
      (chronicle t (before ++ [m])).fleet.find? e =
        some (.fresh (chronicle t before).fleet.nextId e) ∧
      (chronicle t (before ++ [m])).fleet.waiting e = 0 ∧
      ¬ (chronicle t ms).fleet.Current e entry.link.id

theorem chronicle_split (t : FleetTimings) (before after : List Moment) (m : Moment) :
    chronicle t (before ++ m :: after) =
      after.foldl (Chronicle.next t) ((chronicle t before).next t m) :=
  chronicle_append t before (m :: after)

/-- A fleet that is not shut down heals. -/
theorem fleet_heals (t : FleetTimings) (ms : List Moment) (hrunning : Running ms) :
    Healthy t ms := by
  have htended := tended_chronicle t hrunning
  have hentry_of {e entry} (hcurrent : (e, entry) ∈ (chronicle t ms).fleet.entries) :=
    (htended.view e).entry entry ((Fleet.mem_iff_lookup e entry _ htended.once).1 hcurrent)
  constructor
  case one_link =>
    intro e
    rw [← present_iff_started t hrunning, Option.ne_none_iff_exists']
    constructor
    · rintro ⟨entry, hfound⟩
      refine ⟨entry, (Fleet.mem_iff_lookup e entry _ htended.once).2 hfound, ?_⟩
      intro other hmem
      have hfound' := (Fleet.mem_iff_lookup e other _ htended.once).1 hmem
      exact Option.some.inj (hfound'.symm.trans hfound)
    · rintro ⟨entry, hmem, -⟩
      exact ⟨entry, (Fleet.mem_iff_lookup e entry _ htended.once).1 hmem⟩
  case one_delay =>
    intro e entry hcurrent
    refine ⟨?_, (htended.view e).waiting_le_one⟩
    have hwaits : (chronicle t ms).fleet.waiting e = _ := (hentry_of hcurrent).waits
    cases hknown : entry.reconnecting <;> simp [hwaits, hknown]
  case attended =>
    intro e entry hcurrent hdead
    exact (hentry_of hcurrent).reported hdead
  case foreign =>
    intro e id now hother
    exact Fleet.onError_of_not_current t now hother
  case reported =>
    rintro before after m rfl e id hreport hcurrent entry hstill rfl
    obtain ⟨hearly, hlate⟩ := List.forall_mem_append.1 hrunning
    obtain ⟨hstays, hlate⟩ := List.forall_mem_cons.1 hlate
    have htended_before := tended_chronicle t hearly
    have hdoomed : (((chronicle t before).next t m).view e).Doomed entry.link.id
        ((chronicle t before).next t m).fleet.nextId := by
      refine ⟨?_, ?_⟩
      · exact Nat.lt_of_lt_of_le (htended_before.numbered hcurrent)
          (Chronicle.lasts_next t _ hstays).numbers
      · intro entry' hfound' hsame
        obtain ⟨first, hfound, -, hwaits⟩ := hreport.waits htended_before hcurrent
        cases hfound.symm.trans hfound'
        exact hwaits
    have hdoomed_now := Chronicle.Tended.run t (P := View.Doomed entry.link.id)
      (fun _ _ hle hway hdoomed => hdoomed.fate hle hway) hlate (htended_before.next t hstays)
      hdoomed
    rw [← chronicle_split] at hdoomed_now
    have hwaits := hdoomed_now.waits entry hstill rfl
    have hentry_tended := (htended.view e).entry entry hstill
    refine ⟨hentry_tended.dead hwaits, hwaits, ?_⟩
    exact hentry_tended.waits.trans (if_pos hwaits)
  case replaced =>
    rintro before after m rfl e entry hcurrent hgone
    obtain ⟨hearly, hlate⟩ := List.forall_mem_append.1 hrunning
    obtain ⟨hstays, hlate⟩ := List.forall_mem_cons.1 hlate
    have htended_before := tended_chronicle t hearly
    have hnumbered := htended_before.numbered ⟨entry, hcurrent, rfl⟩
    rw [chronicle_snoc] at hgone ⊢
    have hgone_then : (((chronicle t before).next t m).view e).Gone entry.link.id
        ((chronicle t before).next t m).fleet.nextId :=
      ⟨Nat.lt_of_lt_of_le hnumbered (Chronicle.lasts_next t _ hstays).numbers,
        fun entry' hfound' hsame => hgone ⟨entry', hfound', hsame⟩⟩
    have hgone_now := Chronicle.Tended.run t (P := View.Gone entry.link.id)
      (fun _ _ hle hway hgone => hgone.fate hle hway) hlate (htended_before.next t hstays)
      hgone_then
    rw [← chronicle_split] at hgone_now
    obtain hsame | ⟨hhappens, hwaits, hone, hfresh, hnone_due⟩ :=
      (htended_before.view e).same_or_replaced (htended_before.fate t hstays e) hcurrent
    · exact absurd hsame hgone
    · refine ⟨hhappens, hwaits, hone, hfresh, hnone_due, ?_⟩
      rintro ⟨entry', hfound', hsame⟩
      exact hgone_now.absent entry' hfound' hsame

/-- The first link to an endpoint fails, is replaced, and then reports another failure. -/
def lateReport : List Moment :=
  let e : Endpoint := ⟨"timelord", 19191⟩
  [⟨0, .event (.startAll ["timelord"] 19191)⟩, ⟨5, .lapse e (.refused (.noAddress e))⟩,
    ⟨6, .told e 0⟩, ⟨3006, .event (.reconnect e)⟩, ⟨3007, .event (.reportError 0 e)⟩]

/-- The late report of the first link leaves the second one alone, which is still connecting. -/
theorem fleet_heals_late_report :
    Running lateReport ∧ Healthy default lateReport ∧
      (chronicle default lateReport).fleet.find? ⟨"timelord", 19191⟩ =
        some (.fresh 1 ⟨"timelord", 19191⟩) := by
  have hrunning : Running lateReport := by simp [Running, lateReport]
  exact ⟨hrunning, fleet_heals default lateReport hrunning, rfl⟩

end PlotMiner.Timelord
