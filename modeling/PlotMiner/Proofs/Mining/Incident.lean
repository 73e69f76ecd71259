import PlotMiner.Mining.Site
import PlotMiner.Proofs.Mining.Transcript
import PlotMiner.Proofs.Timelord.Receipt

/-!
# A miner among timelords

The timelords work while the miner does. Before a question is answered or a demand is met, anything
may have happened to the fleet: endpoints were added, connections were made and lost, bytes arrived,
messages were handled, requests were sent again. What happens, and in which order, may depend on
everything. The one thing that does not happen is that a proof is reported which no link has
received.

The miner prunes the cache, and broadcasts and clears the request, as it does on any site. For the
rest it may work with any collaborators that leave the fleet to its events.
-/

namespace PlotMiner.Mining

open Timelord

structure Incident where
  time : Nat
  event : FleetEvent
  unreported : ∀ challenge d, event ≠ .reportProof challenge d

/-- A node, and beside it the messages that were received from timelords, the latest first. -/
structure Observed (N : Type) where
  node : N
  received : List Message

variable {N : Type} {α : Type}

namespace Site

/-- The site after an incident. -/
def befall (t : FleetTimings) (s : Site (Observed N)) (i : Incident) : Site (Observed N) :=
  { s with
    fleet := (s.fleet.handle t i.time i.event).1
    node := { s.node with received := s.fleet.receives i.event ++ s.node.received } }

def meet (t : FleetTimings) (incidents : List Incident) (s : Site (Observed N)) :
    Site (Observed N) :=
  incidents.foldl (befall t) s

/-- The site `s` has changed into `s'` in everything but its fleet. -/
def except (s s' : Site (Observed N)) : Site (Observed N) :=
  { s' with fleet := s.fleet, node := { s'.node with received := s.node.received } }

/-- The site may change into any that differs from it by incidents and in what is not the fleet. -/
def Drifts (t : FleetTimings) (s s' : Site (Observed N)) : Prop :=
  ∃ incidents s₁, s' = (s.meet t incidents).except s₁

end Site

section

variable (t : FleetTimings) (incidents : Site (Observed N) → List Incident)

/-- Asks a question after the incidents that come before it. -/
def Site.ask (question : Site (Observed N) → α × Site (Observed N)) (s : Site (Observed N)) :
    α × Site (Observed N) :=
  let s := s.meet t (incidents s)
  ((question s).1, s.except (question s).2)

def Site.demand (change : Site (Observed N) → Site (Observed N)) (s : Site (Observed N)) :
    Site (Observed N) :=
  let s := s.meet t (incidents s)
  s.except (change s)

/-- The collaborators of a miner on a site that meets with incidents. An acquired time proof is
shown at once. -/
def Collaborators.amid (co : Collaborators (Site (Observed N))) :
    Collaborators (Site (Observed N)) where
  checkReady := Site.ask t incidents co.checkReady
  queryChallenge := Site.ask t incidents co.queryChallenge
  requestVdf c i := Site.ask t incidents (co.requestVdf c i)
  submitProof p := Site.ask t incidents (co.submitProof p)
  reloadCookie := Site.ask t incidents co.reloadCookie
  candidates c b := Site.ask t incidents (co.candidates c b)
  fullProof p c i := Site.ask t incidents (co.fullProof p c i)
  revoke k := Site.demand t incidents (co.revoke k)
  netspace := co.netspace
  localKey k := Site.ask t incidents (co.localKey k)
  plotId k f target := Site.ask t incidents (co.plotId k f target)
  retainOnly c s := (Site.demand t incidents (co.retainOnly c) s).withCache (·.retainOnly c)
  cachedProof c i s := s.fleet.cache.bestAtLeast c i
  clearActive s := (Site.demand t incidents co.clearActive s).withFleet Fleet.clearActive
  broadcast q s :=
    (Site.demand t incidents (co.broadcast q) s).withFleet (·.broadcast q resendSeconds)
  inspect v s := s.except (co.inspect v s)
  running := co.running
  now := co.now
  sleep d := Site.demand t incidents (co.sleep d)

end

/-- Where nothing happens, the miner treats its fleet as on any site. -/
theorem Site.collaborators_amid_nothing (t : FleetTimings) (node : NodeAccess (Observed N))
    (keys : Keys.KeyEngine Failure) :
    let quiet := (collaborators node keys).amid t fun _ => []
    quiet.retainOnly = (collaborators node keys).retainOnly ∧
      quiet.cachedProof = (collaborators node keys).cachedProof ∧
      quiet.clearActive = (collaborators node keys).clearActive ∧
      quiet.broadcast = (collaborators node keys).broadcast :=
  ⟨rfl, rfl, rfl, rfl⟩

theorem Site.ask_drifts {t : FleetTimings} {incidents : Site (Observed N) → List Incident}
    (question : Site (Observed N) → α × Site (Observed N)) (s : Site (Observed N)) :
    s.Drifts t (Site.ask t incidents question s).2 := ⟨_, _, rfl⟩

theorem Site.demand_drifts {t : FleetTimings} {incidents : Site (Observed N) → List Incident}
    (change : Site (Observed N) → Site (Observed N)) (s : Site (Observed N)) :
    s.Drifts t (Site.demand t incidents change s) := ⟨_, _, rfl⟩

theorem History.run_amid {ctx : Context} {t : FleetTimings}
    {incidents : Site (Observed N) → List Incident} {co : Collaborators (Site (Observed N))}
    (fuel steps : Nat) (s : Site (Observed N)) :
    let r := Miner.run ctx (co.amid t incidents) fuel steps .initial s
    ∃ ts, History ctx (co.amid t incidents) (Site.Drifts t) s ts r.2.1 r.2.2 := by
  refine History.run fuel steps ?_ .start
  intro ts m s f h
  cases f with
  | net message => exact (h.aside (Site.ask_drifts ..)).aside (Site.demand_drifts ..)
  | rpc code message => exact h.aside (Site.demand_drifts ..)
  | other kind message => exact h.aside (Site.demand_drifts ..)

/-- The fleet is honest about what was received, and the messages in `known` are not forgotten. -/
structure Site.Vouches (s : Site (Observed N)) (known : List Message) : Prop where
  honest : s.fleet.Honest s.node.received
  known : known ⊆ s.node.received

namespace Site.Vouches

variable {t : FleetTimings} {incidents : Site (Observed N) → List Incident}
  {co : Collaborators (Site (Observed N))} {s s' : Site (Observed N)} {known : List Message}

theorem befall (h : s.Vouches known) (i : Incident) : (s.befall t i).Vouches known where
  honest := h.honest.handle t i.time i.unreported
  known := fun _ hm => List.mem_append_right _ (h.known hm)

theorem meet (h : s.Vouches known) (is : List Incident) : (s.meet t is).Vouches known := by
  induction is generalizing s with
  | nil => exact h
  | cons i is ih => exact ih (h.befall i)

theorem except (h : s.Vouches known) : (s.except s').Vouches known := ⟨h.honest, h.known⟩

theorem ask {question : Site (Observed N) → α × Site (Observed N)} {answer : α}
    (h : s.Vouches known) (hanswered : Site.ask t incidents question s = (answer, s')) :
    s'.Vouches known := by
  obtain rfl : _ = s' := congrArg Prod.snd hanswered
  exact (h.meet _).except

theorem demand (h : s.Vouches known) (change : Site (Observed N) → Site (Observed N)) :
    (Site.demand t incidents change s).Vouches known :=
  (h.meet _).except

theorem drifts (h : s.Vouches known) (hdrifts : s.Drifts t s') : s'.Vouches known := by
  obtain ⟨is, s₁, rfl⟩ := hdrifts
  exact (h.meet is).except

theorem said {e : Exchange} (h : s.Vouches known) (hsaid : (co.amid t incidents).Says s e s') :
    s'.Vouches known := by
  cases hsaid with
  | checkReady hanswered => exact h.ask hanswered
  | queryChallenge hanswered => exact h.ask hanswered
  | requestVdf hanswered => exact h.ask hanswered
  | submitProof hanswered => exact h.ask hanswered
  | reloadCookie hanswered => exact h.ask hanswered
  | candidates hanswered => exact h.ask hanswered
  | fullProof hanswered => exact h.ask hanswered
  | localKey hanswered => exact h.ask hanswered
  | plotId hanswered => exact h.ask hanswered
  | revoke => exact h.demand _
  | @retainOnly c =>
    have hchanged : (Site.demand t incidents (co.retainOnly c) s).Vouches known := h.demand _
    exact ⟨hchanged.honest.retainOnly c, hchanged.known⟩
  | clearActive =>
    have hchanged : (Site.demand t incidents co.clearActive s).Vouches known := h.demand _
    exact ⟨hchanged.honest.clearActive, hchanged.known⟩
  | @broadcast q =>
    have hchanged : (Site.demand t incidents (co.broadcast q) s).Vouches known := h.demand _
    exact ⟨hchanged.honest.broadcast _ _, hchanged.known⟩
  | inspect => exact h.except
  | sleep => exact h.demand _

theorem spoken {es : List Exchange} (h : s.Vouches known)
    (hspoken : Conversation (co.amid t incidents) s es s') : s'.Vouches known :=
  hspoken.keeps (fun hsaid hvouched => Site.Vouches.said hvouched hsaid) h

theorem now (h : s.Vouches known) : s.Vouches s.node.received :=
  ⟨h.honest, List.Subset.refl _⟩

end Site.Vouches

end PlotMiner.Mining
