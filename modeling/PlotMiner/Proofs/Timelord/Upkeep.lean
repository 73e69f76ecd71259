import PlotMiner.Proofs.Timelord.Passage
import PlotMiner.Proofs.Timelord.Roster

/-!
# What events do to the endpoints of a fleet

Most events affect one endpoint only (`Fleet.Touched`): its entry is put, and the delays that run
for it change by one or not at all. Starting endpoints adds those that are not there yet
(`Fleet.Added`). No event but a shutdown stops a fleet from making new links, and none gives a
number a second time (`Fleet.Lasts`).
-/

namespace PlotMiner.Timelord

/-- The entry after its link has been answered that it is connected. -/
def FleetEntry.answered (entry : FleetEntry) (active : Option Calc) : FleetEntry :=
  match active with
  | some request => { entry with link := entry.link.send request (milliseconds resendSeconds) }
  | none => entry

namespace FleetEntry

variable (entry : FleetEntry) (request : Calc) (interval : UInt64) (active : Option Calc)

@[simp]
theorem asked_id : (entry.asked request interval).link.id = entry.link.id := by
  unfold asked
  split <;> simp

@[simp]
theorem asked_reconnecting : (entry.asked request interval).reconnecting = entry.reconnecting := by
  unfold asked
  split <;> rfl

@[simp]
theorem asked_stage : (entry.asked request interval).link.stage = entry.link.stage := by
  unfold asked
  split <;> simp

@[simp]
theorem answered_id : (entry.answered active).link.id = entry.link.id := by
  unfold answered
  split <;> simp

@[simp]
theorem answered_reconnecting : (entry.answered active).reconnecting = entry.reconnecting := by
  unfold answered
  split <;> rfl

@[simp]
theorem answered_stage : (entry.answered active).link.stage = entry.link.stage := by
  unfold answered
  split <;> simp

end FleetEntry

namespace Fleet

variable {f : Fleet} {e k : Endpoint} {entry : FleetEntry}

structure Touched (k : Endpoint) (entry : FleetEntry) (waiting : Nat) (f f' : Fleet) : Prop where
  find : ∀ e, f'.find? e = if e = k then some entry else f.find? e
  waits : ∀ e, f'.waiting e = if e = k then waiting else f.waiting e
  active : f'.active = f.active

theorem touched_self (hfound : f.find? k = some entry) : Touched k entry (f.waiting k) f f := by
  refine ⟨?_, ?_, rfl⟩
  · intro e
    split
    case isTrue hsame => exact hsame ▸ hfound
    case isFalse => rfl
  · intro e
    split
    case isTrue hsame => rw [hsame]
    case isFalse => rfl

theorem touched_put (f : Fleet) (k : Endpoint) (entry : FleetEntry) :
    Touched k entry (f.waiting k) f (f.put k entry) := by
  refine ⟨fun e => find?_put f e k entry, ?_, rfl⟩
  intro e
  split
  case isTrue hsame => rw [hsame, waiting_put]
  case isFalse => rfl

namespace Touched

variable {old : FleetEntry} {w w' : Nat} {f' f'' : Fleet}

theorem trans (hfirst : Touched k old w f f') (hsecond : Touched k entry w' f' f'') :
    Touched k entry w' f f'' := by
  refine ⟨?_, ?_, hsecond.active.trans hfirst.active⟩
  · intro e
    rw [hsecond.find, hfirst.find]
    split <;> rfl
  · intro e
    rw [hsecond.waits, hfirst.waits]
    split <;> rfl

end Touched

theorem onConnected_of_not_current {id : Nat} (h : ¬ f.Current k id) : f.onConnected id k = f := by
  unfold onConnected
  split
  case h_1 entry request hfound hactive =>
    refine if_neg ?_
    intro hsame
    exact h ⟨entry, hfound, hsame⟩
  case h_2 => rfl

theorem touched_onConnected (hfound : f.find? k = some entry) :
    Touched k (entry.answered f.active) (f.waiting k) f (f.onConnected entry.link.id k) := by
  unfold onConnected
  cases hactive : f.active with
  | none =>
    simp only [hfound]
    exact touched_self hfound
  | some request =>
    simp only [hfound, if_true]
    exact touched_put f k (entry.answered (some request))

structure Added (texts : List String) (port : UInt16) (f f' : Fleet) : Prop where
  active : f'.active = f.active
  pending : f'.pending = f.pending
  running : f'.shuttingDown = f.shuttingDown
  numbers : f.nextId ≤ f'.nextId
  entry : ∀ e, f'.find? e = f.find? e ∨
    f.find? e = none ∧ (∃ text ∈ texts, Endpoint.parse text port = .ok e) ∧
      ∃ id, f.nextId ≤ id ∧ id < f'.nextId ∧ f'.find? e = some (.fresh id e)
  present : ∀ e, (∃ text ∈ texts, Endpoint.parse text port = .ok e) → f'.find? e ≠ none

namespace Added

variable {texts rest : List String} {text : String} {port : UInt16} {f f' : Fleet}

theorem skip (hknown : ∀ e, Endpoint.parse text port = .ok e → f.find? e ≠ none)
    (h : Added rest port f f') : Added (text :: rest) port f f' := by
  refine ⟨h.active, h.pending, h.running, h.numbers, ?_, ?_⟩
  · intro e
    obtain hsame | ⟨habsent, ⟨other, hmem, hwritten⟩, hnew⟩ := h.entry e
    · exact .inl hsame
    · exact .inr ⟨habsent, ⟨other, List.mem_cons_of_mem _ hmem, hwritten⟩, hnew⟩
  · rintro e ⟨other, hmem, hwritten⟩
    obtain rfl | hmem := List.mem_cons.1 hmem
    · intro hgone
      obtain hsame | ⟨habsent, -⟩ := h.entry e
      · exact hknown e hwritten (hsame ▸ hgone)
      · exact hknown e hwritten habsent
    · exact h.present e ⟨other, hmem, hwritten⟩

theorem connect {k : Endpoint} (hwritten : Endpoint.parse text port = .ok k)
    (habsent : f.find? k = none) (h : Added rest port (f.connect k) f') :
    Added (text :: rest) port f f' := by
  have hlisted : ∃ text' ∈ text :: rest, Endpoint.parse text' port = .ok k :=
    ⟨text, List.mem_cons_self, hwritten⟩
  have hfresh : (f.connect k).find? k = some (.fresh f.nextId k) := by simp [find?_connect]
  have hthere : f'.find? k = some (.fresh f.nextId k) := by
    obtain hsame | ⟨hgone, -⟩ := h.entry k
    · exact hsame.trans hfresh
    · cases hfresh.symm.trans hgone
  have hpast : f.nextId < f'.nextId := h.numbers
  refine ⟨h.active, h.pending, h.running, Nat.le_of_lt hpast, ?_, ?_⟩
  · intro e
    by_cases hsame : e = k
    · subst hsame
      exact .inr ⟨habsent, hlisted, _, Nat.le_refl _, hpast, hthere⟩
    · have hbefore : (f.connect k).find? e = f.find? e := by simp [find?_connect, hsame]
      obtain hkept | ⟨hgone, ⟨other, hmem, hwritten⟩, id, hnew, hold, hadded⟩ := h.entry e
      · exact .inl (hkept.trans hbefore)
      · exact .inr ⟨hbefore ▸ hgone, ⟨other, List.mem_cons_of_mem _ hmem, hwritten⟩, id,
          Nat.le_of_succ_le hnew, hold, hadded⟩
  · rintro e ⟨other, hmem, hparsed⟩
    obtain rfl | hmem := List.mem_cons.1 hmem
    · cases hwritten.symm.trans hparsed
      simp [hthere]
    · exact h.present e ⟨other, hmem, hparsed⟩

end Added

theorem added_startAll (f : Fleet) (texts : List String) (port : UInt16) :
    Added texts port f (f.startAll texts port) := by
  induction texts generalizing f with
  | nil => exact ⟨rfl, rfl, rfl, Nat.le_refl _, fun _ => .inl rfl, by simp⟩
  | cons text rest ih =>
    unfold startAll
    rw [List.foldl_cons]
    split
    case h_1 k hwritten =>
      unfold add
      split
      case h_1 entry hfound =>
        refine (ih f).skip ?_
        intro e hparsed
        cases hwritten.symm.trans hparsed
        simp [hfound]
      case h_2 habsent => exact (ih _).connect hwritten habsent
    case h_2 error hbad =>
      refine (ih f).skip ?_
      intro e hparsed
      cases hbad.symm.trans hparsed

section

variable (t : FleetTimings) (now : Nat)

theorem touched_onError (hfound : f.find? k = some entry) (hnews : entry.reconnecting = false)
    (hrunning : f.shuttingDown = false) :
    Touched k ⟨entry.link.exit, true⟩ (f.waiting k + 1) f (f.onError t now entry.link.id k) := by
  rw [onError_of_current t now hfound hnews hrunning]
  refine ⟨fun e => find?_put f e k _, ?_, rfl⟩
  intro e
  by_cases hsame : e = k
  · simp [waiting, hsame, List.countP_append]
  · simp [waiting, hsame, List.countP_append, Ne.symm hsame]

theorem touched_onReconnect (hdue : 0 < f.waiting k) (hrunning : f.shuttingDown = false) :
    Touched k (.fresh f.nextId k) (f.waiting k - 1) f (f.onReconnect k) ∧
      f.nextId < (f.onReconnect k).nextId := by
  obtain ⟨pending, hmade, hown, hothers⟩ := onReconnect_of_waiting hdue hrunning
  rw [hmade]
  refine ⟨⟨fun e => find?_connect _ e k, ?_, rfl⟩, Nat.lt_succ_self _⟩
  intro e
  by_cases hsame : e = k
  · subst hsame
    rw [if_pos rfl, ← hown]
    rfl
  · rw [if_neg hsame, ← hothers e hsame]
    rfl

theorem Touched.quiet {w : Nat} {f' : Fleet} (h : Touched k entry w f f') (id : Nat)
    {ns : List Notice} (hcalm : ∀ n ∈ ns, n.Quiet) :
    Touched k entry w f (ns.foldl (onNotice t now id k) f') := by
  induction ns generalizing f' with
  | nil => exact h
  | cons n rest ih =>
    have hlater := fun n hmem => hcalm n (List.mem_cons_of_mem _ hmem)
    cases n with
    | wrote frame => exact ih h hlater
    | proof challenge d => exact ih ⟨h.find, h.waits, h.active⟩ hlater
    | connected => exact (hcalm _ List.mem_cons_self).elim
    | failed kind message => exact (hcalm _ List.mem_cons_self).elim

theorem onLink_of_found (hfound : f.find? k = some entry) (event : LinkEvent) :
    (f.onLink t now k event).1 =
      (entry.link.handle t.link now event).2.foldl (onNotice t now entry.link.id k)
        (f.put k { entry with link := (entry.link.handle t.link now event).1 }) := by
  unfold onLink
  simp only [hfound, Link.handle_id]

variable {event : LinkEvent}

theorem touched_onLink_quiet (hfound : f.find? k = some entry)
    (hcalm : ∀ n ∈ (entry.link.handle t.link now event).2, n.Quiet) :
    Touched k { entry with link := (entry.link.handle t.link now event).1 } (f.waiting k) f
      (f.onLink t now k event).1 := by
  rw [onLink_of_found t now hfound]
  exact (touched_put ..).quiet t now _ hcalm

theorem touched_onLink_announced {link : Link} {new : List Notice}
    (hfound : f.find? k = some entry)
    (hway : entry.link.handle t.link now event = (link, .connected :: new))
    (hcalm : ∀ n ∈ new, n.Quiet) :
    Touched k (FleetEntry.answered { entry with link := link } f.active) (f.waiting k) f
      (f.onLink t now k event).1 := by
  have hsame : link.id = entry.link.id := by
    simpa [hway] using Link.handle_id t.link now entry.link event
  have hput := touched_put f k { entry with link := link }
  have hfound' :
      (f.put k { entry with link := link }).find? k = some { entry with link := link } := by
    simp [find?_put]
  rw [onLink_of_found t now hfound, hway, List.foldl_cons, ← hsame]
  exact (hput.trans (touched_onConnected hfound')).quiet t now _ hcalm

theorem touched_onLink_failed {kind : LinkErrorKind} {message : String}
    (hfound : f.find? k = some entry) (hrunning : f.shuttingDown = false)
    (hway : entry.link.handle t.link now event = entry.link.fail kind message) :
    Touched k ⟨entry.link.close, true⟩
      (if entry.reconnecting then f.waiting k else f.waiting k + 1) f
      (f.onLink t now k event).1 := by
  have hput := touched_put f k { entry with link := entry.link.close }
  have hfound' : (f.put k { entry with link := entry.link.close }).find? k =
      some { entry with link := entry.link.close } := by simp [find?_put]
  rw [onLink_of_found t now hfound, hway]
  show Touched k _ _ f
    ((f.put k { entry with link := entry.link.close }).onError t now entry.link.id k)
  by_cases hknown : entry.reconnecting = true
  · rw [onError_of_reconnecting t now hfound' hknown, if_pos hknown]
    exact hknown ▸ hput
  · rw [if_neg hknown]
    exact hput.trans (touched_onError t now hfound' (Bool.eq_false_iff.2 hknown) hrunning)

end

/-- No number is given twice, and the fleet goes on as before. -/
structure Lasts (f f' : Fleet) : Prop where
  numbers : f.nextId ≤ f'.nextId
  running : f'.shuttingDown = f.shuttingDown

theorem respects_lasts : Respects (fun _ _ => True) Lasts where
  refl _ := ⟨Nat.le_refl _, rfl⟩
  trans hfirst hsecond :=
    ⟨Nat.le_trans hfirst.numbers hsecond.numbers, hsecond.running.trans hfirst.running⟩
  connect _ _ := ⟨Nat.le_succ _, rfl⟩
  answer _ _ := ⟨Nat.le_refl _, rfl⟩
  lose _ := ⟨Nat.le_refl _, rfl⟩
  pending _ _ := ⟨Nat.le_refl _, rfl⟩
  record _ _ _ _ := ⟨Nat.le_refl _, rfl⟩

theorem lasts_driven (f : Fleet) (t : FleetTimings) (now : Nat) (event : FleetEvent) :
    Lasts f (f.driven t now event) :=
  of_driven t now f event ⟨Nat.le_refl _, rfl⟩ fun _ _ _ _ _ => ⟨Nat.le_refl _, rfl⟩

theorem lasts_handle (f : Fleet) (t : FleetTimings) (now : Nat) {event : FleetEvent}
    (hstays : event ≠ .shutdown) : Lasts f (f.handle t now event).1 := by
  apply respects_lasts.trans (lasts_driven f t now event)
  refine respects_lasts.handle t now f event (fun _ _ _ => trivial) ?_ ?_ ?_
  · intro request n _
    exact ⟨Nat.le_refl _, rfl⟩
  · intro _
    exact ⟨Nat.le_refl _, rfl⟩
  · intro hends
    exact absurd hends hstays

end Fleet

end PlotMiner.Timelord
