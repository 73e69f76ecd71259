import PlotMiner.Proofs.Mining.Provenance
import PlotMiner.Proofs.Timelord.Upkeep

/-!
# What the timelords work on

A request becomes active only when it is broadcast, and a miner that alone broadcasts does so while
it waits for a time proof, for the challenge of the round. Before it adopts another challenge it has
the active request cleared, and whatever connects or fails from then on cannot bring it back. So in
a round the timelords are handed requests for the challenge of that round and no other.
-/

namespace PlotMiner

namespace Timelord

/-- The mailbox of the link has grown, by requests that are all the given one. -/
def Link.Extends (given : Option Calc) (l l' : Link) : Prop :=
  l'.id = l.id ∧ ∃ new, l'.mailbox = l.mailbox ++ new ∧ ∀ q ∈ requests new, given = some q

namespace Link.Extends

variable {given : Option Calc} {l l' l'' : Link}

theorem refl (l : Link) : l.Extends given l := ⟨rfl, [], by simp⟩

theorem trans (h : l.Extends given l') (h' : l'.Extends given l'') : l.Extends given l'' := by
  obtain ⟨hsame, new, hgrown, hknown⟩ := h
  obtain ⟨hsame', new', hgrown', hknown'⟩ := h'
  refine ⟨hsame'.trans hsame, new ++ new', by rw [hgrown', hgrown, List.append_assoc], ?_⟩
  intro q hmem
  rw [requests_append] at hmem
  exact (List.mem_append.1 hmem).elim (hknown q) (hknown' q)

theorem send {request : Calc} (hnamed : given = some request) (interval : Nat) :
    l.Extends given (l.send request interval) := by
  unfold Link.send
  split
  · exact refl l
  · exact ⟨rfl, [.send request interval], rfl, by simp [hnamed]⟩

theorem exit (l : Link) : l.Extends given l.exit := by
  unfold Link.exit
  split
  · exact refl l
  · exact refl l
  · exact ⟨rfl, [.exit], rfl, by simp⟩
  · exact ⟨rfl, [.exit], rfl, by simp⟩

end Link.Extends

namespace Fleet

variable {given : Option Calc} {f f' f'' : Fleet} {k : Endpoint} {entry : FleetEntry}

/-- No link is handed a request that is not the given one. A link may be new. -/
def Mails (given : Option Calc) (f f' : Fleet) : Prop :=
  ∀ e entry, f'.find? e = some entry →
    (∀ q ∈ requests entry.link.mailbox, given = some q) ∨
    ∃ old, f.find? e = some old ∧ old.link.Extends given entry.link

theorem Mails.refl (f : Fleet) : Mails given f f :=
  fun _ entry hfound => .inr ⟨entry, hfound, .refl entry.link⟩

theorem Mails.trans (h : Mails given f f') (h' : Mails given f' f'') : Mails given f f'' := by
  intro e entry hfound
  obtain hown | ⟨middle, hthere, hlater⟩ := h' e entry hfound
  · exact .inl hown
  obtain hown | ⟨old, hbefore, hearlier⟩ := h e middle hthere
  · obtain ⟨-, new, hgrown, hknown⟩ := hlater
    refine .inl fun q hmem => ?_
    rw [hgrown, requests_append] at hmem
    exact (List.mem_append.1 hmem).elim (hown q) (hknown q)
  · exact .inr ⟨old, hbefore, hearlier.trans hlater⟩

theorem Mails.put {old : FleetEntry} (hfound : f.find? k = some old)
    (hgrown : old.link.Extends given entry.link) : Mails given f (f.put k entry) := by
  intro e other hthere
  rw [find?_put] at hthere
  split at hthere
  case isTrue hsame =>
    cases hthere
    exact .inr ⟨old, hsame ▸ hfound, hgrown⟩
  case isFalse => exact .inr ⟨other, hthere, .refl other.link⟩

theorem mails_connect (f : Fleet) (k : Endpoint) : Mails given f (f.connect k) := by
  intro e other hthere
  rw [find?_connect] at hthere
  split at hthere
  case isTrue =>
    cases hthere
    exact .inl (by simp [FleetEntry.fresh, Link.new, Link.start])
  case isFalse => exact .inr ⟨other, hthere, .refl other.link⟩

structure Supplies (f f' : Fleet) : Prop where
  active : f'.active = f.active
  mails : Mails f.active f f'

theorem respects_supplies : Respects (fun _ _ => True) Supplies where
  refl f := ⟨rfl, .refl f⟩
  trans hfirst hsecond :=
    ⟨hsecond.active.trans hfirst.active, hfirst.mails.trans (hfirst.active ▸ hsecond.mails)⟩
  connect f k := ⟨rfl, mails_connect f k⟩
  answer hfound hactive := ⟨rfl, .put hfound (.send hactive _)⟩
  lose hfound := ⟨rfl, .put hfound (.exit _)⟩
  pending f _ := ⟨rfl, .refl f⟩
  record f _ _ _ := ⟨rfl, .refl f⟩

theorem mails_broadcast (f : Fleet) (request : Calc) (interval : UInt64) :
    Mails (some request) f (f.broadcast request interval) := by
  intro e entry hfound
  rw [find?_broadcast] at hfound
  obtain ⟨old, hthere, rfl⟩ := Option.map_eq_some_iff.1 hfound
  refine .inr ⟨old, hthere, ?_⟩
  unfold FleetEntry.asked
  split
  · exact .refl old.link
  · exact .send rfl _

theorem mails_shutdown (f : Fleet) : Mails given f f.shutdown := by
  intro e entry hfound
  rw [find?_shutdown] at hfound
  obtain ⟨old, hthere, rfl⟩ := Option.map_eq_some_iff.1 hfound
  exact .inr ⟨old, hthere, .exit old.link⟩

end Fleet

def FleetEvent.Unprompted (event : FleetEvent) : Prop :=
  ∀ request n, event ≠ .broadcast request n

namespace Fleet

variable (t : FleetTimings) (now : Nat) (f : Fleet) {event : FleetEvent}

theorem active_driven (event : FleetEvent) : (f.driven t now event).active = f.active :=
  of_driven (P := fun f' => f'.active = f.active) t now f event rfl fun _ _ _ _ _ => rfl

/-- Only a broadcast makes a request active. -/
theorem active_handle (hunprompted : event.Unprompted) {q : Calc}
    (hactive : (f.handle t now event).1.active = some q) : f.active = some q := by
  by_cases hclears : event = .clearActive
  · subst hclears
    cases hactive
  have hsupplies : Supplies (f.driven t now event) (f.handle t now event).1 := by
    refine respects_supplies.handle t now f event (fun _ _ _ => trivial) ?_ ?_ ?_
    · intro request n hasks
      exact absurd hasks (hunprompted request n)
    · intro hasks
      exact absurd hasks hclears
    · intro _
      exact ⟨rfl, mails_shutdown f⟩
  rw [← active_driven t now f event, ← hsupplies.active]
  exact hactive

/-- Unless it is a broadcast, an event hands the active request to links or none. -/
theorem mails_handle (hunprompted : event.Unprompted) :
    Mails f.active (f.driven t now event) (f.handle t now event).1 := by
  by_cases hclears : event = .clearActive
  · subst hclears
    exact .refl f
  rw [← active_driven t now f event]
  apply Supplies.mails
  refine respects_supplies.handle t now f event (fun _ _ _ => trivial) ?_ ?_ ?_
  · intro request n hasks
    exact absurd hasks (hunprompted request n)
  · intro hasks
    exact absurd hasks hclears
  · intro _
    exact ⟨rfl, mails_shutdown f⟩

/-- The commands that the fleet puts into the mailbox of the link to an endpoint when an event
happens. What the session takes when the event is its own has left the mailbox before. -/
inductive Hands (event : FleetEvent) (e : Endpoint) : List Command → Prop
  | kept {old entry new} (hbefore : (f.driven t now event).find? e = some old)
      (hafter : (f.handle t now event).1.find? e = some entry)
      (hsame : entry.link.id = old.link.id)
      (hmailbox : entry.link.mailbox = old.link.mailbox ++ new) : Hands event e new
  | made {entry} (hafter : (f.handle t now event).1.find? e = some entry)
      (hother : ∀ old, (f.driven t now event).find? e = some old → old.link.id ≠ entry.link.id) :
      Hands event e entry.link.mailbox

variable {t now f} {e : Endpoint} {new : List Command}

theorem Hands.given {given : Option Calc} (h : Hands t now f event e new)
    (hmails : Mails given (f.driven t now event) (f.handle t now event).1) :
    ∀ q ∈ requests new, given = some q := by
  intro q hmem
  cases h with
  | @kept old entry _ hbefore hafter hsame hmailbox =>
    obtain hown | ⟨old', hbefore', -, new', hgrown, hknown⟩ := hmails e entry hafter
    · apply hown
      rw [hmailbox, requests_append]
      exact List.mem_append_right _ hmem
    · cases hbefore.symm.trans hbefore'
      exact hknown q (List.append_cancel_left (hmailbox.symm.trans hgrown) ▸ hmem)
  | @made entry hafter hother =>
    obtain hown | ⟨old, hbefore, hsame, -⟩ := hmails e entry hafter
    · exact hown q hmem
    · exact absurd hsame.symm (hother old hbefore)

theorem Hands.active (h : Hands t now f event e new) (hunprompted : event.Unprompted) :
    ∀ q ∈ requests new, f.active = some q :=
  h.given (mails_handle t now f hunprompted)

theorem Hands.broadcast {request : Calc} {n : UInt64}
    (h : Hands t now f (.broadcast request n) e new) : ∀ q ∈ requests new, q = request := by
  intro q hmem
  exact (Option.some.inj (h.given (mails_broadcast f request n) q hmem)).symm

/-- A link that is said to have been connected is handed the active request, unless it is closed. -/
theorem hands_reportConnected {q : Calc} (hfound : f.find? e = some entry)
    (hactive : f.active = some q) (halive : entry.link.state ≠ .closed) :
    f.Hands t now (.reportConnected entry.link.id e) e [.send q (milliseconds resendSeconds)] := by
  have htouched := touched_onConnected hfound
  rw [hactive] at htouched
  have hafter : (f.handle t now (.reportConnected entry.link.id e)).1.find? e =
      some (entry.answered (some q)) := (htouched.find e).trans (if_pos rfl)
  refine .kept hfound hafter (by simp) ?_
  simp [FleetEntry.answered, Link.send, halive]

end Fleet

end Timelord

namespace Mining

open Timelord

variable {N : Type}

/-- The site may change into any that differs from it by incidents that are no broadcasts, and in
what is not the fleet. -/
def Site.Strays (t : FleetTimings) (s s' : Site (Observed N)) : Prop :=
  ∃ is : List Incident, (∀ i ∈ is, i.event.Unprompted) ∧ ∃ s₁, s' = (s.meet t is).except s₁

section

variable {α : Type} {ctx : Context} {co : Collaborators (Site (Observed N))} {t : FleetTimings}
  {incidents : Site (Observed N) → List Incident} {s s' s₀ : Site (Observed N)} {m m' : Miner}
  {ts : List Turn} {es : List Exchange} {e : Exchange} {q : Calc} {c : Challenge}

theorem Site.active_meet {is : List Incident} (hunprompted : ∀ i ∈ is, i.event.Unprompted)
    (hactive : (s.meet t is).fleet.active = some q) : s.fleet.active = some q := by
  induction is generalizing s with
  | nil => exact hactive
  | cons i is ih =>
    have hbefore : (s.befall t i).fleet.active = some q :=
      ih (fun j hmem => hunprompted j (List.mem_cons_of_mem _ hmem)) hactive
    exact s.fleet.active_handle t i.time (hunprompted i List.mem_cons_self) hbefore

theorem Site.Strays.active (h : s.Strays t s') (hactive : s'.fleet.active = some q) :
    s.fleet.active = some q := by
  obtain ⟨is, hunprompted, s₁, rfl⟩ := h
  exact Site.active_meet hunprompted hactive

variable (halone : ∀ s, ∀ i ∈ incidents s, i.event.Unprompted)

include halone

theorem Site.ask_strays (question : Site (Observed N) → α × Site (Observed N))
    (s : Site (Observed N)) : s.Strays t (Site.ask t incidents question s).2 :=
  ⟨incidents s, halone s, _, rfl⟩

theorem Site.demand_strays (change : Site (Observed N) → Site (Observed N))
    (s : Site (Observed N)) : s.Strays t (Site.demand t incidents change s) :=
  ⟨incidents s, halone s, _, rfl⟩

/-- A miner that runs on a site where nobody else broadcasts has such a history. -/
theorem History.run_alone (fuel steps : Nat) (s : Site (Observed N)) :
    let r := Miner.run ctx (co.amid t incidents) fuel steps .initial s
    ∃ ts, History ctx (co.amid t incidents) (Site.Strays t) s ts r.2.1 r.2.2 := by
  refine History.run fuel steps ?_ .start
  intro ts m s f h
  cases f with
  | net message =>
    exact (h.aside (Site.ask_strays halone ..)).aside (Site.demand_strays halone ..)
  | rpc code message => exact h.aside (Site.demand_strays halone ..)
  | other kind message => exact h.aside (Site.demand_strays halone ..)

theorem Site.active_ask {question : Site (Observed N) → α × Site (Observed N)} {answer : α}
    (hanswered : Site.ask t incidents question s = (answer, s'))
    (hactive : s'.fleet.active = some q) : s.fleet.active = some q := by
  obtain rfl : _ = s' := congrArg Prod.snd hanswered
  exact (Site.ask_strays halone question s).active hactive

/-- What is active after an exchange was broadcast in it, or was active before and has not been
cleared. -/
theorem Collaborators.Says.active (hsaid : (co.amid t incidents).Says s e s')
    (hactive : s'.fleet.active = some q) :
    e = .broadcast q ∨ e ≠ .clearActive ∧ s.fleet.active = some q := by
  cases hsaid with
  | checkReady hanswered => exact .inr ⟨nofun, Site.active_ask halone hanswered hactive⟩
  | queryChallenge hanswered => exact .inr ⟨nofun, Site.active_ask halone hanswered hactive⟩
  | requestVdf hanswered => exact .inr ⟨nofun, Site.active_ask halone hanswered hactive⟩
  | submitProof hanswered => exact .inr ⟨nofun, Site.active_ask halone hanswered hactive⟩
  | reloadCookie hanswered => exact .inr ⟨nofun, Site.active_ask halone hanswered hactive⟩
  | candidates hanswered => exact .inr ⟨nofun, Site.active_ask halone hanswered hactive⟩
  | fullProof hanswered => exact .inr ⟨nofun, Site.active_ask halone hanswered hactive⟩
  | localKey hanswered => exact .inr ⟨nofun, Site.active_ask halone hanswered hactive⟩
  | plotId hanswered => exact .inr ⟨nofun, Site.active_ask halone hanswered hactive⟩
  | revoke => exact .inr ⟨nofun, (Site.demand_strays halone _ s).active hactive⟩
  | @retainOnly c =>
    exact .inr ⟨nofun, (Site.demand_strays halone (co.retainOnly c) s).active hactive⟩
  | clearActive => cases hactive
  | broadcast =>
    cases hactive
    exact .inl rfl
  | inspect => exact .inr ⟨nofun, hactive⟩
  | sleep => exact .inr ⟨nofun, (Site.demand_strays halone _ s).active hactive⟩

theorem Conversation.active (hspoken : Conversation (co.amid t incidents) s es s')
    (hactive : s'.fleet.active = some q) : s.fleet.active = some q ∨ .broadcast q ∈ es := by
  induction hspoken with
  | silence => exact .inl hactive
  | next _ hsaid ih =>
    obtain rfl | ⟨-, hbefore⟩ := hsaid.active halone hactive
    · exact .inr List.mem_cons_self
    · exact (ih hbefore).imp_right (List.mem_cons_of_mem _)

theorem Conversation.idle_of_adopted
    (hspoken : Conversation (co.amid t incidents) s
      [.retainOnly c.challenge, .queryChallenge (.ok c), .clearActive, .checkReady (.ok true)] s') :
    s'.fleet.active = none := by
  obtain _ | ⟨_ | ⟨_ | ⟨_, hcleared⟩, hreported⟩, hretained⟩ := hspoken
  rw [Option.eq_none_iff_forall_ne_some]
  intro q hactive
  obtain hwrong | ⟨-, hactive⟩ := hretained.active halone hactive
  · cases hwrong
  obtain hwrong | ⟨-, hactive⟩ := hreported.active halone hactive
  · cases hwrong
  obtain hwrong | ⟨hwrong, -⟩ := hcleared.active halone hactive
  · cases hwrong
  · exact hwrong rfl

theorem Transition.idle (h : Transition ctx (co.amid t incidents) m s es m' s')
    (hspoken : Conversation (co.amid t incidents) s es s') (hphase : m.phase = .requireChallenge)
    (hbusy : m'.phase ≠ .requireChallenge) : s'.fleet.active = none := by
  cases h with
  | adopted => exact hspoken.idle_of_adopted halone
  | kept | cleared | repeated => exact absurd hphase hbusy
  | unproved _ hother | proved _ _ _ hother | acquired _ hother => simp [hphase] at hother
  | processed hother => simp [hphase] at hother
  | abandoned | dropped | refused | accepted => exact absurd rfl hbusy

omit halone

/-- A request that is active in a round is for the challenge of the round. -/
def Miner.Focused (m : Miner) (s : Site (Observed N)) : Prop :=
  m.phase ≠ .requireChallenge → ∀ q, s.fleet.active = some q → m.queried.challenge = q.challenge

theorem Miner.Focused.spoken (h : m.Focused s) (hbusy : m.phase ≠ .requireChallenge)
    (halone : ∀ s, ∀ i ∈ incidents s, i.event.Unprompted)
    (hspoken : Conversation (co.amid t incidents) s es s') (hfits : ∀ e ∈ es, e.Fits ctx m)
    (hactive : s'.fleet.active = some q) : m.queried.challenge = q.challenge := by
  obtain hbefore | hsaid := hspoken.active halone hactive
  · exact h hbusy q hbefore
  · obtain ⟨-, hsame, -⟩ := hfits _ hsaid
    exact hsame.symm

theorem Miner.Focused.turn (h : m.Focused s)
    (halone : ∀ s, ∀ i ∈ incidents s, i.event.Unprompted) (fuel : Nat) :
    let after := m.step ctx (co.amid t incidents) fuel s
    after.2.1.Focused after.2.2 := by
  intro after hbusy q hactive
  have hspoken : Conversation (co.amid t incidents) s _ after.2.2 := Miner.turn_spoken ..
  have hfits := Miner.turn_fits ctx (co.amid t incidents) m s fuel
  have htransition : Transition ctx (co.amid t incidents) m s _ after.2.1 after.2.2 :=
    Miner.turn_transition ..
  have hkept (hbefore : m.phase ≠ .requireChallenge) : m.queried.challenge = q.challenge :=
    h.spoken hbefore halone hspoken hfits hactive
  generalize (m.turn ctx (co.amid t incidents) fuel s).exchanges = es at hspoken htransition
  generalize after.2.1 = m' at hbusy htransition ⊢
  generalize after.2.2 = s' at hactive hspoken htransition
  cases htransition with
  | kept => exact hkept hbusy
  | cleared hphase => exact absurd hphase hbusy
  | repeated c hphase => exact absurd hphase hbusy
  | adopted c =>
    cases (hspoken.idle_of_adopted halone).symm.trans hactive
  | unproved iters hphase => exact hkept (by simp [hphase])
  | proved s farmerKey p hphase => exact hkept (by simp [hphase])
  | acquired v hphase => exact hkept (by simp [hphase])
  | processed hphase => exact hkept (by simp [hphase])
  | abandoned | dropped | refused | accepted => exact absurd rfl hbusy

theorem History.focused (halone : ∀ s, ∀ i ∈ incidents s, i.event.Unprompted)
    (h : History ctx (co.amid t incidents) (Site.Strays t) s₀ ts m s) : m.Focused s := by
  induction h with
  | start => exact fun hbusy => absurd rfl hbusy
  | turn fuel _ ih => exact ih.turn halone fuel
  | aside _ hstrays ih => exact fun hbusy q hactive => ih hbusy q (hstrays.active hactive)

theorem History.current (h : History ctx (co.amid t incidents) (Site.Strays t) s₀ ts m s)
    (hbusy : m.phase ≠ .requireChallenge) : m.current = some m.queried.challenge := by
  rw [← Collaborators.amid_withCache] at h
  exact (h.consistent.adopted hbusy).current

/-- A miner that runs since the site was `s₀`, and the site at some moment of its next turn: some
exchanges of the turn have been made, and any incidents but broadcasts may have followed them. -/
inductive Midst (ctx : Context) (co : Collaborators (Site (Observed N))) (t : FleetTimings)
    (incidents : Site (Observed N) → List Incident) (s₀ : Site (Observed N)) :
    Miner → Site (Observed N) → Prop
  | of {ts m s fuel later earlier s₁ s'}
      (hhistory : History ctx (co.amid t incidents) (Site.Strays t) s₀ ts m s)
      (hturn : (m.turn ctx (co.amid t incidents) fuel s).exchanges = later ++ earlier)
      (hspoken : Conversation (co.amid t incidents) s earlier s₁) (hstrays : s₁.Strays t s') :
      Midst ctx co t incidents s₀ m s'

/-- Before the first exchange of a turn, too, there is such a moment. -/
theorem Midst.between (h : History ctx (co.amid t incidents) (Site.Strays t) s₀ ts m s) :
    Midst ctx co t incidents s₀ m s := by
  have hall := (List.append_nil (m.turn ctx (co.amid t incidents) 0 s).exchanges).symm
  exact .of h hall .silence ⟨[], nofun, s, rfl⟩

theorem Midst.current (h : Midst ctx co t incidents s₀ m s)
    (halone : ∀ s, ∀ i ∈ incidents s, i.event.Unprompted) (hbusy : m.phase ≠ .requireChallenge)
    (hactive : s.fleet.active = some q) : m.current = some q.challenge := by
  obtain @⟨ts, _, s₁, fuel, later, earlier, _, _, hhistory, hturn, hspoken, hstrays⟩ := h
  have hfits : ∀ e ∈ earlier, e.Fits ctx m := by
    intro e hmem
    exact Miner.turn_fits ctx _ m s₁ fuel e (hturn ▸ List.mem_append_right _ hmem)
  rw [hhistory.current hbusy]
  exact congrArg some
    ((hhistory.focused halone).spoken hbusy halone hspoken hfits (hstrays.active hactive))

/-- Where the miner alone broadcasts, the active request of the fleet is at every moment of a round
for the challenge of the round, if there is one, and so is whatever request a link is handed, be it
because of a broadcast or because of anything else. When a challenge has been adopted there is no
active request, whatever has happened meanwhile. -/
theorem active_names_round (ctx : Context) (co : Collaborators (Site (Observed N)))
    (t : FleetTimings) (incidents : Site (Observed N) → List Incident)
    (halone : ∀ s, ∀ i ∈ incidents s, i.event.Unprompted) (s₀ : Site (Observed N)) :
    (∀ m s, Midst ctx co t incidents s₀ m s → m.phase ≠ .requireChallenge →
      (∀ q, s.fleet.active = some q → m.current = some q.challenge) ∧
      ∀ now event e new, event.Unprompted → s.fleet.Hands t now event e new →
        ∀ q ∈ requests new, m.current = some q.challenge) ∧
    (∀ ts m s fuel, History ctx (co.amid t incidents) (Site.Strays t) s₀ ts m s →
      let turn := m.turn ctx (co.amid t incidents) fuel s
      (∀ c, turn.Adopts c → ∀ s', ((m.step ctx (co.amid t incidents) fuel s).2.2).Strays t s' →
        s'.fleet.active = none) ∧
      ∀ request, .broadcast request ∈ turn.exchanges →
        m.phase = .waitVdf ∧ m.current = some request.challenge ∧
        ∀ now f n e new, Fleet.Hands t now f (.broadcast request n) e new →
          ∀ q ∈ requests new, m.current = some q.challenge) := by
  constructor
  · intro m s hmidst hbusy
    constructor
    · intro q hactive
      exact hmidst.current halone hbusy hactive
    · intro now event e new hunprompted hhands q hmem
      exact hmidst.current halone hbusy (hhands.active hunprompted q hmem)
  · intro ts m s fuel hhistory turn
    constructor
    · intro c hadopts s' hstrays
      have hidle := (Miner.turn_transition ctx (co.amid t incidents) m s fuel).idle halone
        (Miner.turn_spoken ..) hadopts.1 hadopts.2.1
      rw [Option.eq_none_iff_forall_ne_some]
      intro q hactive
      exact absurd (hstrays.active hactive) (by simp [hidle])
    · intro request hsaid
      obtain ⟨hphase, hsame, -⟩ := Miner.turn_fits _ _ _ _ _ _ hsaid
      have hbusy : m.phase ≠ .requireChallenge := by simp [hphase]
      have hcurrent : m.current = some request.challenge := by
        rw [hsame, hhistory.current hbusy]
      refine ⟨hphase, hcurrent, ?_⟩
      intro now f n e new hhands q hmem
      rw [hhands.broadcast q hmem]
      exact hcurrent

end

namespace Sample

theorem unprompted_delivery : ∀ s, ∀ i ∈ delivery s, i.event.Unprompted := by
  intro s i hmem request n
  unfold delivery at hmem
  split at hmem
  · simp only [List.mem_cons, List.not_mem_nil, or_false] at hmem
    obtain rfl | rfl | rfl | rfl | rfl := hmem <;> exact nofun
  · exact absurd hmem List.not_mem_nil

theorem history_unprompted (n : Nat) :
    History context amidDelivery (Site.Strays default) (.fresh () ⟨[], default, 0⟩ 0 true)
      (turnsAmid n).1 (turnsAmid n).2.1 (turnsAmid n).2.2 :=
  .turns 10 n

end Sample

/-- When the sample miner has its time proof, a link that is connected again is handed the request
for the challenge of the round. -/
theorem active_names_round_delivered :
    let m := (Sample.turnsAmid 3).2.1
    let f := (Sample.turnsAmid 3).2.2.fleet
    m.phase = .processVdf ∧ ∃ q n,
      f.Hands default 0 (.reportConnected 0 Sample.timelord) Sample.timelord [.send q n] ∧
        m.current = some q.challenge := by
  intro m f
  have hfacts : m.phase = .processVdf ∧ f.active.isSome ∧
      (f.find? Sample.timelord).any
        fun entry => entry.link.id = 0 ∧ entry.link.state ≠ .closed := by decide +kernel
  obtain ⟨hphase, hisActive, hisThere⟩ := hfacts
  have hmidst := Midst.between (Sample.history_unprompted 3)
  obtain ⟨q, hactive⟩ := Option.isSome_iff_exists.1 hisActive
  obtain ⟨entry, hfound, hcurrent⟩ := (Option.any_eq_true ..).1 hisThere
  have ⟨hnumber, halive⟩ := of_decide_eq_true hcurrent
  have hunprompted : (FleetEvent.reportConnected 0 Sample.timelord).Unprompted := by
    intro request n
    exact nofun
  have hhands : f.Hands default 0 (.reportConnected entry.link.id Sample.timelord) Sample.timelord
      [.send q (milliseconds resendSeconds)] :=
    Fleet.hands_reportConnected hfound hactive halive
  rw [hnumber] at hhands
  exact ⟨hphase, q, _, hhands,
    ((active_names_round _ _ _ _ Sample.unprompted_delivery _).1 m _ hmidst (by simp [hphase])).2
      0 _ _ _ hunprompted hhands q (by simp)⟩

end Mining

end PlotMiner
