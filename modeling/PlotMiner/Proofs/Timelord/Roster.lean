import Mathlib.Data.List.Count
import PlotMiner.Proofs.Lookup
import PlotMiner.Timelord.Fleet

/-!
# Entries and delays of a fleet

Whatever is done to a fleet, its entries change in two ways: the entry of one endpoint is put, or
all entries are gone through one by one. A look-up follows each of them. Beside the entries stand
the delays that are running, which are counted for each endpoint. A relation between fleets that
follows each single thing that a fleet does by itself follows whole events (`Respects.handle`).
-/

namespace PlotMiner.Timelord

namespace FleetEntry

def fresh (id : Nat) (e : Endpoint) : FleetEntry := ⟨(Link.new id e).start, false⟩

def asked (entry : FleetEntry) (request : Calc) (interval : UInt64) : FleetEntry :=
  if entry.reconnecting then entry
  else { entry with link := entry.link.send request (milliseconds interval) }

end FleetEntry

namespace Fleet

/-- The link with a number is the current one to an endpoint. -/
def Current (f : Fleet) (e : Endpoint) (id : Nat) : Prop :=
  ∃ entry, f.find? e = some entry ∧ entry.link.id = id

/-- How many new links an endpoint waits for. -/
def waiting (f : Fleet) (e : Endpoint) : Nat := f.pending.countP (·.endpoint = e)

section Entries

variable (e k : Endpoint) (entry : FleetEntry) (entries : List (Endpoint × FleetEntry))

theorem lookup_putEntry :
    (putEntry k entry entries).lookup e = if e = k then some entry else entries.lookup e := by
  induction entries with
  | nil => simp [putEntry, lookup_cons_ite]
  | cons head rest ih =>
    obtain ⟨first, old⟩ := head
    by_cases hhere : first = k
    · by_cases hsame : e = k <;> simp [putEntry, lookup_cons_ite, hhere, hsame]
    · by_cases hsame : e = first
      · simp [putEntry, hhere, hsame]
      · simp [putEntry, lookup_cons_ite, hhere, hsame, ih]

theorem lookup_map (g : Endpoint → FleetEntry → FleetEntry) :
    (entries.map fun p => (p.1, g p.1 p.2)).lookup e = (entries.lookup e).map (g e) := by
  induction entries with
  | nil => rfl
  | cons head rest ih =>
    obtain ⟨first, old⟩ := head
    by_cases hsame : e = first <;> simp [lookup_cons_ite, hsame, ih]

theorem mem_keys_putEntry :
    e ∈ (putEntry k entry entries).map Prod.fst ↔ e = k ∨ e ∈ entries.map Prod.fst := by
  induction entries with
  | nil => simp [putEntry]
  | cons head rest ih =>
    obtain ⟨first, old⟩ := head
    by_cases hhere : first = k
    · simp [putEntry, hhere]
    · simp only [putEntry, hhere, if_false, List.map_cons, List.mem_cons, ih]
      exact or_left_comm

theorem nodup_putEntry (honce : (entries.map Prod.fst).Nodup) :
    ((putEntry k entry entries).map Prod.fst).Nodup := by
  induction entries with
  | nil => simp [putEntry]
  | cons head rest ih =>
    obtain ⟨first, old⟩ := head
    obtain ⟨hapart, hrest_once⟩ := List.nodup_cons.1 honce
    by_cases hhere : first = k
    · simpa [putEntry, hhere] using honce
    · simp only [putEntry, hhere, if_false, List.map_cons, List.nodup_cons]
      refine ⟨?_, ih hrest_once⟩
      intro hmem
      exact ((mem_keys_putEntry ..).1 hmem).elim hhere hapart

theorem mem_iff_lookup (honce : (entries.map Prod.fst).Nodup) :
    (e, entry) ∈ entries ↔ entries.lookup e = some entry :=
  ⟨lookup_of_mem honce, mem_of_lookup⟩

end Entries

variable (f : Fleet) (e k : Endpoint)

theorem find?_put (entry : FleetEntry) :
    (f.put k entry).find? e = if e = k then some entry else f.find? e :=
  lookup_putEntry e k entry f.entries

theorem find?_connect :
    (f.connect k).find? e = if e = k then some (.fresh f.nextId k) else f.find? e :=
  lookup_putEntry e k _ f.entries

theorem entries_broadcast (request : Calc) (interval : UInt64) :
    (f.broadcast request interval).entries =
      f.entries.map fun p => (p.1, p.2.asked request interval) := by
  refine List.map_congr_left ?_
  rintro ⟨k, entry⟩ -
  by_cases hidle : entry.reconnecting <;> simp [FleetEntry.asked, hidle]

theorem find?_broadcast (request : Calc) (interval : UInt64) :
    (f.broadcast request interval).find? e = (f.find? e).map (·.asked request interval) := by
  rw [find?, entries_broadcast]
  exact lookup_map e f.entries fun _ entry => entry.asked request interval

theorem find?_shutdown :
    f.shutdown.find? e = (f.find? e).map fun entry => { entry with link := entry.link.exit } :=
  lookup_map e f.entries fun _ entry => { entry with link := entry.link.exit }

@[simp]
theorem waiting_put (entry : FleetEntry) : (f.put k entry).waiting e = f.waiting e := rfl

/-- The fleet after an event has happened to a link of it, and before the fleet hears of that. -/
def driven (t : FleetTimings) (now : Nat) (f : Fleet) : FleetEvent → Fleet
  | .link k event =>
    match f.find? k with
    | some entry => f.put k { entry with link := (entry.link.handle t.link now event).1 }
    | none => f
  | _ => f

/-- At most the entry of one endpoint has been put, with its link changed. -/
theorem of_driven {P : Fleet → Prop} (t : FleetTimings) (now : Nat) (f : Fleet) (event : FleetEvent)
    (hsame : P f)
    (hput : ∀ k e entry, event = .link k e → f.find? k = some entry →
      P (f.put k { entry with link := (entry.link.handle t.link now e).1 })) :
    P (f.driven t now event) := by
  cases event with
  | link k e =>
    cases hfound : f.find? k with
    | some entry => simpa only [driven, hfound] using hput k e entry rfl hfound
    | none => simpa only [driven, hfound] using hsame
  | _ => exact hsame

/-- A relation between fleets that follows each single thing that a fleet does by itself, where it
records only such proofs as it may. -/
structure Respects (may : Bytes32 → ProofDetail → Prop) (R : Fleet → Fleet → Prop) : Prop where
  refl : ∀ f, R f f
  trans : ∀ {f f' f''}, R f f' → R f' f'' → R f f''
  connect : ∀ f k, R f (f.connect k)
  answer : ∀ {f k entry request}, f.find? k = some entry → f.active = some request →
    R f (f.put k { entry with link := entry.link.send request (milliseconds resendSeconds) })
  lose : ∀ {f k entry}, f.find? k = some entry → R f (f.put k ⟨entry.link.exit, true⟩)
  pending : ∀ f rs, R f { f with pending := rs }
  record : ∀ f challenge d, may challenge d → R f (f.onProof challenge d)

namespace Respects

variable {may : Bytes32 → ProofDetail → Prop} {R : Fleet → Fleet → Prop} (h : Respects may R)

include h

theorem onConnected (f : Fleet) (id : Nat) (k : Endpoint) : R f (f.onConnected id k) := by
  unfold Fleet.onConnected
  split
  case h_1 entry request hfound hactive =>
    split
    · exact h.answer hfound hactive
    · exact h.refl f
  case h_2 => exact h.refl f

theorem onError (f : Fleet) (t : FleetTimings) (now id : Nat) (k : Endpoint) :
    R f (f.onError t now id k) := by
  unfold Fleet.onError
  split
  case h_1 => exact h.refl f
  case h_2 entry hfound =>
    split
    · dsimp only
      split
      · exact h.lose hfound
      · exact h.trans (h.lose hfound) (h.pending ..)
    · exact h.refl f

theorem onReconnect (f : Fleet) (k : Endpoint) : R f (f.onReconnect k) := by
  unfold Fleet.onReconnect
  split
  · exact h.refl f
  · dsimp only
    split
    · exact h.pending ..
    · exact h.trans (h.pending ..) (h.connect ..)

theorem onNotice (f : Fleet) (t : FleetTimings) (now id : Nat) (k : Endpoint) {notice : Notice}
    (hknown : ∀ challenge d, notice = .proof challenge d → may challenge d) :
    R f (f.onNotice t now id k notice) := by
  cases notice with
  | connected => exact h.onConnected f id k
  | proof challenge d => exact h.record f challenge d (hknown challenge d rfl)
  | failed kind message => exact h.onError f t now id k
  | wrote frame => exact h.refl f

theorem startAll (f : Fleet) (texts : List String) (port : UInt16) :
    R f (f.startAll texts port) := by
  unfold Fleet.startAll
  refine List.foldlRecOn (motive := R f) _ _ (h.refl f) ?_
  intro f' hbefore text _
  apply h.trans hbefore
  split
  · unfold add
    split
    · exact h.refl f'
    · exact h.connect ..
  · exact h.refl f'

/-- What a relation asks of single things it asks of whole events. The link that an event happens to
has changed before; and what the owner of a fleet asks of all links at once is left to show. -/
theorem handle (t : FleetTimings) (now : Nat) (f : Fleet) (event : FleetEvent)
    (hknown : ∀ challenge d, event = .reportProof challenge d ∨
      .proof challenge d ∈ (f.handle t now event).2 → may challenge d)
    (hbroadcast : ∀ request n, event = .broadcast request n → R f (f.broadcast request n))
    (hclear : event = .clearActive → R f f.clearActive)
    (hshutdown : event = .shutdown → R f f.shutdown) :
    R (f.driven t now event) (f.handle t now event).1 := by
  cases event with
  | startAll texts port => exact h.startAll f texts port
  | broadcast request n => exact hbroadcast request n rfl
  | clearActive => exact hclear rfl
  | shutdown => exact hshutdown rfl
  | reportConnected id k => exact h.onConnected f id k
  | reportError id k => exact h.onError f t now id k
  | reportProof challenge d => exact h.record f challenge d (hknown challenge d (.inl rfl))
  | reconnect k => exact h.onReconnect f k
  | link k event =>
    cases hfound : f.find? k with
    | none =>
      simp only [driven, Fleet.handle, onLink, hfound]
      exact h.refl f
    | some entry =>
      simp only [driven, Fleet.handle, onLink, hfound] at hknown ⊢
      refine List.foldlRecOn (motive := R _) _ _ (h.refl _) ?_
      intro f' hbefore notice hmem
      refine h.trans hbefore (h.onNotice f' t now _ k ?_)
      rintro challenge d rfl
      exact hknown challenge d (.inr hmem)

end Respects

/-- What holds of the entries of a fleet, and is kept when an entry is put and when all entries are
gone through, is kept by every event. -/
theorem entries_handle {P : List (Endpoint × FleetEntry) → Prop}
    (hput : ∀ k entry {entries}, P entries → P (putEntry k entry entries))
    (hmap : ∀ (g : Endpoint → FleetEntry → FleetEntry) {entries}, P entries →
      P (entries.map fun p => (p.1, g p.1 p.2)))
    (t : FleetTimings) (now : Nat) (event : FleetEvent) {f : Fleet} (h : P f.entries) :
    P (f.handle t now event).1.entries := by
  have hrespects : Respects (fun _ _ => True) fun f f' => P f.entries → P f'.entries := {
    refl := fun _ h => h
    trans := fun hfirst hsecond h => hsecond (hfirst h)
    connect := fun _ k h => hput k _ h
    answer := fun _ _ h => hput _ _ h
    lose := fun _ h => hput _ _ h
    pending := fun _ _ h => h
    record := fun _ _ _ _ h => h }
  refine hrespects.handle t now f event (fun _ _ _ => trivial) ?_ (fun _ h => h) ?_ ?_
  · intro request n _ h
    rw [entries_broadcast]
    exact hmap (fun _ entry => entry.asked request n) h
  · intro _ h
    exact hmap (fun _ entry => { entry with link := entry.link.exit }) h
  · refine of_driven (P := fun f => P f.entries) t now f event h ?_
    exact fun k _ _ _ _ => hput k _ h

theorem nodup_handle (t : FleetTimings) (now : Nat) (event : FleetEvent)
    (honce : (f.entries.map Prod.fst).Nodup) :
    ((f.handle t now event).1.entries.map Prod.fst).Nodup := by
  refine entries_handle (P := fun entries => (entries.map Prod.fst).Nodup) ?_ ?_ t now event honce
  · exact fun k entry entries honce => nodup_putEntry k entry entries honce
  · intro g entries honce
    simpa [List.map_map, Function.comp_def] using honce

section

variable (t : FleetTimings) (now : Nat) {f : Fleet} {e : Endpoint} {entry : FleetEntry}

theorem onError_of_not_current {id : Nat} (h : ¬ f.Current e id) : f.onError t now id e = f := by
  unfold onError
  split
  case h_1 => rfl
  case h_2 entry hfound =>
    refine if_neg ?_
    rintro ⟨hsame, -⟩
    exact h ⟨entry, hfound, hsame⟩

theorem onError_of_reconnecting {id : Nat} (hfound : f.find? e = some entry)
    (hknown : entry.reconnecting = true) : f.onError t now id e = f := by
  unfold onError
  simp [hfound, hknown]

theorem onError_of_current (hfound : f.find? e = some entry)
    (hnews : entry.reconnecting = false) (hrunning : f.shuttingDown = false) :
    f.onError t now entry.link.id e =
      { f.put e ⟨entry.link.exit, true⟩ with
        pending := f.pending ++ [⟨e, now + t.reconnectDelay⟩] } := by
  unfold onError
  simp only [hfound, hnews, and_self, if_true]
  exact if_neg (by simp [put, hrunning])

/-- A delay that has passed gives the endpoint its new link. -/
theorem onReconnect_of_waiting (hdue : 0 < f.waiting e) (hrunning : f.shuttingDown = false) :
    ∃ pending, f.onReconnect e = { f with pending := pending }.connect e ∧
      pending.countP (·.endpoint = e) + 1 = f.waiting e ∧
      ∀ k ≠ e, pending.countP (·.endpoint = k) = f.waiting k := by
  obtain ⟨r, hmem, hown⟩ := List.countP_pos_iff.1 hdue
  obtain ⟨first, hfound⟩ : ∃ first, f.pending.find? (·.endpoint = e) = some first :=
    Option.isSome_iff_exists.1 (List.find?_isSome.2 ⟨r, hmem, hown⟩)
  have hfirst_own : first.endpoint = e := by simpa using List.find?_some hfound
  have hfirst_mem := List.mem_of_find?_eq_some hfound
  refine ⟨f.pending.erase first, ?_, ?_, ?_⟩
  · unfold onReconnect
    simp [hfound, hrunning]
  · have hone : f.waiting e = f.pending.countP (·.endpoint = e) := rfl
    rw [List.countP_erase]
    simp only [hfirst_mem, hfirst_own, decide_true, and_self, if_true]
    omega
  · intro k hother
    rw [List.countP_erase]
    simp [hfirst_own, Ne.symm hother, waiting]

theorem onReconnect_of_not_waiting (hnone_due : f.waiting e = 0) : f.onReconnect e = f := by
  unfold onReconnect
  have hnothing : f.pending.find? (fun r => decide (r.endpoint = e)) = none := by
    rw [List.find?_eq_none]
    exact fun r hmem => List.countP_eq_zero.1 hnone_due r hmem
  simp [hnothing]

end

end Fleet

end PlotMiner.Timelord
