import PlotMiner.Proofs.Timelord.Cache
import PlotMiner.Proofs.Timelord.Passage
import PlotMiner.Proofs.Timelord.Roster

/-!
# What a fleet has received

A proof gets into the cache of a fleet in one way only: bytes arrive over a link, the reader makes a
message of them, the message waits until the session handles it, and the fleet records the proof
that the message carries under the challenge that it names. The messages that were received are not
part of a fleet. They are kept beside it here, and every proof in the cache is traced back to one of
them (`Fleet.Honest`), however late it is handled and whatever was dropped from the cache in
between.
-/

namespace PlotMiner.Timelord

/-- The message is a proof for the challenge, or a reply that has the result for it. -/
def Message.Carries : Message → Bytes32 → ProofDetail → Prop
  | proof m, challenge, d => m.challenge = challenge ∧ m.detail = d
  | calcReply m, challenge, d => m.challenge = challenge ∧ m.detail = some d
  | _, _, _ => False

theorem Message.carries_of_delivery {m : Message} {challenge : Bytes32} {d : ProofDetail}
    (h : m.delivery? = some (challenge, d)) : m.Carries challenge d := by
  cases m with
  | proof m =>
    obtain ⟨rfl, rfl⟩ := Prod.mk.inj (Option.some.inj h)
    exact ⟨rfl, rfl⟩
  | calcReply m =>
    obtain ⟨d, hhas, hmade⟩ := Option.map_eq_some_iff.1 h
    obtain ⟨rfl, rfl⟩ := Prod.mk.inj hmade
    exact ⟨rfl, hhas⟩
  | _ => simp [delivery?] at h

def messagesOf (incoming : List Incoming) : List Message := incoming.filterMap Except.toOption

theorem mem_messagesOf {incoming : List Incoming} {m : Message} :
    m ∈ messagesOf incoming ↔ .ok m ∈ incoming := by
  simp only [messagesOf, List.mem_filterMap]
  constructor
  · rintro ⟨_ | _, hknown, hsame⟩
    · simp [Except.toOption] at hsame
    · cases hsame
      exact hknown
  · intro hknown
    exact ⟨_, hknown, rfl⟩

/-- The message was read and waits to be handled. -/
def Link.Waits (l : Link) (m : Message) : Prop := ∃ s, l.stage = .opened s ∧ .ok m ∈ s.inbox

/-- The messages that a link reads when an event happens to it. -/
def Link.reads (l : Link) (e : LinkEvent) : List Message :=
  match l.stage, e with
  | .opened s, .arrived bytes => messagesOf (s.reader.feed bytes).2
  | .opened s, .hungUp => messagesOf s.reader.finish
  | _, _ => []

namespace Session

variable (s : Session) (now : Nat)

theorem proof_not_mem_applyAll (commands : List Command) (challenge : Bytes32) (d : ProofDetail) :
    .proof challenge d ∉ (s.applyAll now commands).2 := by
  intro hproof
  obtain ⟨request, ⟨⟩⟩ := s.eq_wrote_of_mem_applyAll now hproof

@[simp]
theorem receive_inbox (m : Message) : (s.receive m).1.inbox = s.inbox := by
  cases m <;> rfl

theorem carries_of_mem_noticesOf {m : Message} {challenge : Bytes32} {d : ProofDetail}
    (h : .proof challenge d ∈ noticesOf m) : m.Carries challenge d := by
  unfold noticesOf at h
  split at h
  case h_1 c x hdelivery =>
    obtain ⟨rfl, rfl⟩ : challenge = c ∧ d = x := by simpa using h
    exact Message.carries_of_delivery hdelivery
  case h_2 => simp at h

end Session

namespace Link

variable {t : LinkTimings} {now : Nat} {l : Link} {e : LinkEvent} {m : Message}

theorem mem_reads_of_hear {s : Session} (hstage : l.stage = .opened s)
    (hheard : .ok m ∈ (s.reader.hear e).2) : m ∈ l.reads e := by
  cases e with
  | arrived bytes => simpa [reads, hstage, mem_messagesOf, Reader.hear] using hheard
  | hungUp => simpa [reads, hstage, mem_messagesOf, Reader.hear] using hheard
  | broken reason =>
    simp only [Reader.hear] at hheard
    split at hheard <;> simp at hheard
  | _ => cases hheard

/-- What waits after an event has waited before, or is read with the event. -/
theorem handle_waits (h : (l.handle t now e).1.Waits m) : l.Waits m ∨ m ∈ l.reads e := by
  have hway := l.handle_passage t now e
  generalize l.handle t now e = r at hway h
  cases hway with
  | unmoved => exact .inl h
  | announced =>
    obtain ⟨_, ⟨⟩, hm⟩ := h
    rw [Session.applyAll_inbox] at hm
    cases hm
  | applied hstage =>
    obtain ⟨_, ⟨⟩, hm⟩ := h
    rw [Session.apply_inbox] at hm
    exact .inl ⟨_, hstage, hm⟩
  | read hstage =>
    obtain ⟨_, ⟨⟩, hm⟩ := h
    obtain hbefore | hheard := List.mem_append.1 hm
    · exact .inl ⟨_, hstage, hbefore⟩
    · exact .inr (mem_reads_of_hear hstage hheard)
  | received hstage hinbox =>
    obtain ⟨_, ⟨⟩, hm⟩ := h
    rw [Session.receive_inbox] at hm
    exact .inl ⟨_, hstage, hinbox ▸ List.mem_cons_of_mem _ hm⟩
  | pinged hstage | resent hstage =>
    obtain ⟨_, ⟨⟩, hm⟩ := h
    exact .inl ⟨_, hstage, hm⟩
  | _ =>
    -- no session is open any more, or not yet
    obtain ⟨_, ⟨⟩, _⟩ := h

/-- A link gives notice of a proof only while it handles a message, and only if the proof is carried
by a message that waits. -/
theorem handle_proof {challenge : Bytes32} {d : ProofDetail}
    (h : .proof challenge d ∈ (l.handle t now e).2) :
    e = .takeMessage ∧ ∃ m, l.Waits m ∧ m.Carries challenge d := by
  have hway := l.handle_passage t now e
  generalize l.handle t now e = r at hway h
  cases hway with
  | announced => simp [Session.proof_not_mem_applyAll] at h
  | @received s m rest hstage hinbox =>
    have hwaits : l.Waits m := ⟨s, hstage, hinbox ▸ List.mem_cons_self⟩
    exact ⟨rfl, m, hwaits, Session.carries_of_mem_noticesOf h⟩
  | _ => simp [withSession, Session.apply, Session.ping, fail] at h

theorem send_waits (request : Calc) (interval : Nat) :
    (l.send request interval).Waits m ↔ l.Waits m := by
  unfold send
  split <;> rfl

theorem exit_waits : l.exit.Waits m ↔ l.Waits m := by
  unfold exit
  split <;> rfl

theorem not_waits_start_new (id : Nat) (endpoint : Endpoint) :
    ¬ (new id endpoint).start.Waits m := by
  simp [new, start, Waits]

end Link

namespace Fleet

/-- The messages that a fleet reads when an event happens to it. -/
def receives (f : Fleet) : FleetEvent → List Message
  | .link endpoint e => (f.find? endpoint).elim [] fun entry => entry.link.reads e
  | _ => []

/-- Every message that waits was received, and every proof in the cache is carried by a message that
was received. -/
structure Honest (f : Fleet) (received : List Message) : Prop where
  waiting : ∀ p ∈ f.entries, ∀ m, p.2.link.Waits m → m ∈ received
  cached : ∀ challenge, ∀ d ∈ f.cache.proofs challenge, ∃ m ∈ received, m.Carries challenge d

variable {f : Fleet} {received : List Message}

theorem honest_empty : empty.Honest [] := ⟨by simp [empty], by simp [empty]⟩

theorem mem_putEntry {e : Endpoint} {entry : FleetEntry} {entries : List (Endpoint × FleetEntry)}
    {p : Endpoint × FleetEntry} (h : p ∈ putEntry e entry entries) :
    p = (e, entry) ∨ p ∈ entries := by
  induction entries with
  | nil => exact .inl (List.mem_singleton.1 h)
  | cons head rest ih =>
    obtain ⟨k, old⟩ := head
    by_cases hhere : k = e
    · simp only [putEntry, hhere, if_true, List.mem_cons] at h
      exact h.imp_right (List.mem_cons_of_mem _)
    · simp only [putEntry, hhere, if_false, List.mem_cons] at h
      rcases h with hhead | htail
      · exact .inr (hhead ▸ List.mem_cons_self)
      · exact (ih htail).imp_right (List.mem_cons_of_mem _)

/-- A fleet is told of a proof only by the link that the event happens to. -/
theorem proof_of_handle {t : FleetTimings} {now : Nat} {event : FleetEvent} {challenge : Bytes32}
    {d : ProofDetail} (htold : .proof challenge d ∈ (f.handle t now event).2) :
    ∃ k entry, event = .link k .takeMessage ∧ f.find? k = some entry ∧
      .proof challenge d ∈ (entry.link.handle t.link now .takeMessage).2 := by
  cases event with
  | link k e =>
    cases hfound : f.find? k with
    | none => simp [Fleet.handle, onLink, hfound] at htold
    | some entry =>
      have htold : .proof challenge d ∈ (entry.link.handle t.link now e).2 := by
        simpa [Fleet.handle, onLink, hfound] using htold
      obtain ⟨rfl, -⟩ := Link.handle_proof htold
      exact ⟨k, entry, rfl, hfound, htold⟩
  | _ => cases htold

namespace Honest

theorem mono {more : List Message} (h : f.Honest received) (hsub : received ⊆ more) :
    f.Honest more where
  waiting p hp m hwaits := hsub (h.waiting p hp m hwaits)
  cached challenge d hd := by
    obtain ⟨m, hknown, hcarries⟩ := h.cached challenge d hd
    exact ⟨m, hsub hknown, hcarries⟩

theorem put {e : Endpoint} {entry : FleetEntry} (h : f.Honest received)
    (hnew : ∀ m, entry.link.Waits m → m ∈ received) : (f.put e entry).Honest received where
  waiting p hp m hwaits := by
    rcases mem_putEntry hp with rfl | hold
    · exact hnew m hwaits
    · exact h.waiting p hold m hwaits
  cached := h.cached

theorem connect (h : f.Honest received) (e : Endpoint) : (f.connect e).Honest received where
  waiting := (h.put fun _ hwaits => absurd hwaits (Link.not_waits_start_new f.nextId e)).waiting
  cached := h.cached

theorem broadcast (h : f.Honest received) (request : Calc) (interval : UInt64) :
    (f.broadcast request interval).Honest received where
  waiting p hp m hwaits := by
    obtain ⟨⟨e, entry⟩, hold, rfl⟩ := List.mem_map.1 hp
    refine h.waiting _ hold m ?_
    by_cases hidle : entry.reconnecting
    · simpa [hidle] using hwaits
    · simpa [hidle, Link.send_waits] using hwaits
  cached := h.cached

theorem clearActive (h : f.Honest received) : f.clearActive.Honest received := ⟨h.waiting, h.cached⟩

theorem shutdown (h : f.Honest received) : f.shutdown.Honest received where
  waiting p hp m hwaits := by
    obtain ⟨q, hold, rfl⟩ := List.mem_map.1 hp
    exact h.waiting q hold m (Link.exit_waits.1 hwaits)
  cached := h.cached

theorem onProof {challenge : Bytes32} {d : ProofDetail} (h : f.Honest received)
    (hcarried : ∃ m ∈ received, m.Carries challenge d) :
    (f.onProof challenge d).Honest received where
  waiting := h.waiting
  cached c x hx := by
    rcases ProofCache.mem_proofs_record hx with hold | ⟨rfl, rfl⟩
    · exact h.cached c x hold
    · exact hcarried

theorem retainOnly (h : f.Honest received) (challenge : Bytes32) :
    { f with cache := f.cache.retainOnly challenge }.Honest received where
  waiting := h.waiting
  cached c d hd := h.cached c d (ProofCache.mem_proofs_retainOnly hd)

theorem received_of_waits {e : Endpoint} {entry : FleetEntry} (h : f.Honest received)
    (hfound : f.find? e = some entry) {m : Message} (hwaits : entry.link.Waits m) : m ∈ received :=
  h.waiting _ (mem_of_lookup hfound) m hwaits

theorem told {t : FleetTimings} {now : Nat} {event : FleetEvent} {challenge : Bytes32}
    {d : ProofDetail} (h : f.Honest received)
    (htold : .proof challenge d ∈ (f.handle t now event).2) :
    ∃ m ∈ received, m.Carries challenge d := by
  obtain ⟨k, entry, -, hfound, htold⟩ := proof_of_handle htold
  obtain ⟨-, m, hwaits, hcarries⟩ := Link.handle_proof htold
  exact ⟨m, h.received_of_waits hfound hwaits, hcarries⟩

theorem respects (received : List Message) :
    Respects (fun challenge d => ∃ m ∈ received, m.Carries challenge d)
      fun f f' => f.Honest received → f'.Honest received where
  refl _ h := h
  trans hfirst hsecond h := hsecond (hfirst h)
  connect _ e h := h.connect e
  answer hfound _ h :=
    h.put fun _ hwaits => h.received_of_waits hfound ((Link.send_waits _ _).1 hwaits)
  lose hfound h := h.put fun _ hwaits => h.received_of_waits hfound (Link.exit_waits.1 hwaits)
  pending _ _ h := ⟨h.waiting, h.cached⟩
  record _ _ _ hcarried h := h.onProof hcarried

theorem driven (h : f.Honest received) (t : FleetTimings) (now : Nat) (event : FleetEvent) :
    (f.driven t now event).Honest (f.receives event ++ received) := by
  have hbefore := h.mono (List.subset_append_right (f.receives event) received)
  refine of_driven (P := fun f' => f'.Honest (f.receives event ++ received)) t now f event
    hbefore ?_
  rintro k e entry rfl hfound
  refine hbefore.put fun m hwaits => ?_
  have hreads : f.receives (.link k e) = entry.link.reads e := by simp [receives, hfound]
  obtain hold | hnew := Link.handle_waits hwaits
  · exact hbefore.received_of_waits hfound hold
  · exact List.mem_append_left _ (hreads ▸ hnew)

/-- Every event keeps a fleet honest, unless the event is that a proof is made up. -/
theorem handle (h : f.Honest received) (t : FleetTimings) (now : Nat) {event : FleetEvent}
    (hunreported : ∀ challenge d, event ≠ .reportProof challenge d) :
    (f.handle t now event).1.Honest (f.receives event ++ received) := by
  refine (respects _).handle t now f event ?_ ?_ ?_ ?_ (h.driven t now event)
  · rintro challenge d (hmade | htold)
    · exact absurd hmade (hunreported challenge d)
    · obtain ⟨m, hreceived, hcarries⟩ := h.told htold
      exact ⟨m, List.mem_append_right _ hreceived, hcarries⟩
  · exact fun request n _ h => h.broadcast request n
  · exact fun _ h => h.clearActive
  · exact fun _ h => h.shutdown

end Honest

end Fleet

end PlotMiner.Timelord
