import PlotMiner.Proofs.Timelord.Healing

/-!
# The active request reaches every link

A request is handed to a link when it is put into the mailbox: what a link has been handed is what
it has taken from its mailbox, and then what still waits there. A link that has been answered that
it is connected, and is not closed, has been handed the active request last, whatever the order in
which requests were broadcast and cleared and links came and went.
-/

namespace PlotMiner.Timelord

def LinkDeed.taken? : LinkDeed → Option Command
  | took c => some c
  | greeted | wrote _ => none

/-- The requests that a link has been handed, the first one first. -/
def handed (log : Nat → List LinkDeed) (l : Link) : List Calc :=
  requests ((log l.id).filterMap LinkDeed.taken? ++ l.mailbox)

section

variable (log : Nat → List LinkDeed) (l : Link)

@[simp]
theorem note_self (id : Nat) (new : List LinkDeed) : note log id new id = log id ++ new :=
  Function.update_self ..

theorem handed_send (halive : l.state ≠ .closed) (request : Calc) (interval : Nat) :
    handed log (l.send request interval) = handed log l ++ [request] := by
  simp [handed, Link.send, halive]

theorem taken_deeds (t : LinkTimings) (now : Nat) (e : LinkEvent) :
    (l.deeds t now e).filterMap LinkDeed.taken? = l.takes t now e := by
  have hnoticed :
      (((l.handle t now e).2.filterMap Notice.deed?).filterMap LinkDeed.taken?) = [] := by
    rw [List.filterMap_filterMap, List.filterMap_eq_nil_iff]
    intro n _
    cases n <;> rfl
  rw [Link.deeds, List.filterMap_append, hnoticed, List.append_nil, List.filterMap_map]
  exact List.filterMap_some

/-- A link that takes commands has been handed them before. -/
theorem handed_handle (t : LinkTimings) (now : Nat) (e : LinkEvent) :
    handed (note log l.id (l.deeds t now e)) (l.handle t now e).1 = handed log l := by
  refine congrArg requests ?_
  rw [Link.handle_id, note_self, List.filterMap_append, taken_deeds, List.append_assoc,
    l.takes_append]

end

/-- The link of an endpoint has been handed the active request last. -/
def View.UpToDate (v : View) : Prop :=
  ∀ entry request, v.entry = some entry → v.active = some request →
    .greeted ∈ v.log entry.link.id → entry.link.state ≠ .closed →
      (handed v.log entry.link).getLast? = some request

theorem greeted_mem_note {log : Nat → List LinkDeed} {t : LinkTimings} {now : Nat} {l : Link}
    {e : LinkEvent} (hcalm : ∀ n ∈ (l.handle t now e).2, n.Quiet)
    (hgreeted : .greeted ∈ note log l.id (l.deeds t now e) l.id) : .greeted ∈ log l.id := by
  rw [note_self, List.mem_append, Link.deeds, List.mem_append, List.mem_map,
    List.mem_filterMap] at hgreeted
  obtain hbefore | ⟨c, -, hwrong⟩ | ⟨n, hmem, hdeed⟩ := hgreeted
  · exact hbefore
  · cases hwrong
  · have := hcalm n hmem
    cases n <;> simp_all [Notice.Quiet, Notice.deed?]

theorem getLast_handed_answered (log : Nat → List LinkDeed) (entry : FleetEntry)
    {active : Option Calc} {request : Calc} (hgiven : active = some request)
    (halive : (entry.answered active).link.state ≠ .closed) :
    (handed log (entry.answered active).link).getLast? = some request := by
  subst hgiven
  have halive_before : entry.link.state ≠ .closed := by
    simpa [FleetEntry.answered] using halive
  simp [FleetEntry.answered, handed_send log entry.link halive_before]

theorem View.UpToDate.fate {t : FleetTimings} {first past : Nat} {m : Moment} {e : Endpoint}
    {v v' : View} (h : v.UpToDate) (htended : v.Tended first e)
    (hway : Fate t first past m e v v') : v'.UpToDate := by
  intro entry' request hfound' hactive hgreeted halive
  cases hway with
  | kept | ignored => exact h entry' request hfound' hactive hgreeted halive
  | cleared => cases hactive
  | asked =>
    obtain ⟨entry, hfound, rfl⟩ := Option.map_eq_some_iff.1 hfound'
    cases hactive
    unfold FleetEntry.asked at halive ⊢
    split at halive
    case isTrue hwaits => exact absurd ((htended.entry entry hfound).dead hwaits) halive
    case isFalse hnews =>
      rw [if_neg hnews]
      simp [handed_send _ _ (by simpa using halive)]
  | @added _ _ _ id hevent hlisted hwritten habsent hnew hnumbered =>
    cases hfound'
    have hblank : v.log id = [] := htended.blank id hnew
    exact absurd (hblank ▸ hgreeted : LinkDeed.greeted ∈ []) List.not_mem_nil
  | replaced hevent hdue hnumbered =>
    cases hfound'
    have hblank : v.log first = [] := htended.blank first (Nat.le_refl first)
    exact absurd (hblank ▸ hgreeted : LinkDeed.greeted ∈ []) List.not_mem_nil
  | answered hevent hfound =>
    cases hfound'
    exact getLast_handed_answered _ _ hactive halive
  | reported hevent hfound hnews =>
    cases hfound'
    exact absurd (htended.entry _ hfound).sound.exit_state halive
  | moved hhappens hfound hcalm hclosed =>
    cases hfound'
    rw [Link.handle_id] at hgreeted
    rw [handed_handle]
    exact h _ request hfound hactive (greeted_mem_note hcalm hgreeted) (mt hclosed.2 halive)
  | announced hhappens hfound hway hcalm =>
    cases hfound'
    exact getLast_handed_answered _ _ hactive halive
  | failed hhappens hfound hway =>
    cases hfound'
    exact absurd rfl halive
  | lapsed hhappens hfound =>
    cases hfound'
    exact absurd rfl halive

/-- A link does not open its session before it is answered. -/
def View.Greeted (v : View) : Prop :=
  ∀ entry s, v.entry = some entry → entry.link.stage = .opened s →
    .greeted ∈ v.log entry.link.id

theorem View.Greeted.fate {t : FleetTimings} {first past : Nat} {m : Moment} {e : Endpoint}
    {v v' : View} (h : v.Greeted) (hway : Fate t first past m e v v') : v'.Greeted := by
  intro entry' s hfound' hstage
  cases hway with
  | kept | cleared | ignored => exact h entry' s hfound' hstage
  | asked =>
    obtain ⟨entry, hfound, rfl⟩ := Option.map_eq_some_iff.1 hfound'
    simpa using h entry s hfound (by simpa using hstage)
  | added | replaced => cases hfound'; cases hstage
  | answered hevent hfound =>
    cases hfound'
    simp
  | reported hevent hfound hnews =>
    cases hfound'
    simpa using h _ s hfound (by simpa using hstage)
  | moved hhappens hfound hcalm hclosed hopened =>
    cases hfound'
    obtain ⟨old, hbefore⟩ := hopened s hstage
    simpa [Link.handle_id] using .inl (h _ old hfound hbefore)
  | announced hhappens hfound hway =>
    cases hfound'
    simp [Link.deeds, hway, Notice.deed?]
  | failed | lapsed => cases hfound'; cases hstage

/-- Every current link whose session is open, or which has been answered that it is connected, has
been handed the active request last, unless it is closed. -/
theorem active_handed_last (t : FleetTimings) (ms : List Moment) (hrunning : Running ms)
    (e : Endpoint) (entry : FleetEntry) (request : Calc)
    (hcurrent : (chronicle t ms).fleet.find? e = some entry)
    (hactive : (chronicle t ms).fleet.active = some request)
    (hanswered : (∃ s, entry.link.stage = .opened s) ∨
      .greeted ∈ (chronicle t ms).log e entry.link.id)
    (halive : entry.link.state ≠ .closed) :
    (handed ((chronicle t ms).log e) entry.link).getLast? = some request := by
  have hupToDate : ((chronicle t ms).view e).UpToDate :=
    Chronicle.tended_start.run t (P := fun _ v => v.UpToDate)
      (fun _ htended _ hway h => h.fate htended hway) hrunning fun _ _ habsent => nomatch habsent
  have hgreeted : ((chronicle t ms).view e).Greeted :=
    Chronicle.tended_start.run t (P := fun _ v => v.Greeted)
      (fun _ _ _ hway h => h.fate hway) hrunning fun _ _ habsent => nomatch habsent
  refine hupToDate entry request hcurrent hactive ?_ halive
  obtain ⟨s, hopened⟩ | htold := hanswered
  · exact hgreeted entry s hcurrent hopened
  · exact htold

/-- A request is broadcast while the link is connecting, is answered to it again, and is overtaken
by another one. -/
def overtaken (first second : Calc) : List Moment :=
  let e : Endpoint := ⟨"timelord", 19191⟩
  [⟨0, .event (.startAll ["timelord"] 19191)⟩, ⟨1, .event (.broadcast first 22)⟩,
    ⟨2, .event (.link e .connected)⟩, ⟨2, .event (.link e .announced)⟩,
    ⟨3, .event (.broadcast second 22)⟩]

theorem active_handed_last_overtaken :
    let second : Calc := { (default : Calc) with iters := 7 }
    let e : Endpoint := ⟨"timelord", 19191⟩
    let c := chronicle default (overtaken default second)
    Running (overtaken default second) ∧ c.fleet.active = some second ∧
      ∃ entry, c.fleet.find? e = some entry ∧ (∃ s, entry.link.stage = .opened s) ∧
        entry.link.state ≠ .closed ∧ (handed (c.log e) entry.link).getLast? = some second := by
  intro second e c
  have hrunning : Running (overtaken default second) := by simp [Running, overtaken]
  let entry : FleetEntry :=
    ⟨⟨0, e, .connected, [.send default 22000, .send default 22000, .send second 22000],
      .opened (Session.new default 2)⟩, false⟩
  have hfound : c.fleet.find? e = some entry := rfl
  have hactive : c.fleet.active = some second := rfl
  have hopened : ∃ s, entry.link.stage = .opened s := ⟨_, rfl⟩
  have halive : entry.link.state ≠ .closed := by decide
  have hlast :=
    active_handed_last default _ hrunning e entry second hfound hactive (.inl hopened) halive
  exact ⟨hrunning, hactive, entry, hfound, hopened, halive, hlast⟩

end PlotMiner.Timelord
