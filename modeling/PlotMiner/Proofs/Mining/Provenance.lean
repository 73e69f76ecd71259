import PlotMiner.Proofs.Mining.Foundation
import PlotMiner.Proofs.Mining.Incident

/-!
# Where time proofs come from

A time proof reaches a miner in one of two ways. The node has it in a report of the challenge, or a
timelord sent it in a message that names the challenge. The message may be handled much later, when
the miner is on another challenge, and the cache may be pruned before or after that. Still the proof
is never taken for one of another challenge.
-/

namespace PlotMiner.Mining

open Timelord

/-- The node has reported the time proof for its challenge, or a message that was received carries
it for its challenge. -/
inductive Sourced (ts : List Turn) (received : List Message) (v : VdfProof) : Prop
  | reported {t : Turn} {c : Challenge} : t ∈ ts → .queryChallenge (.ok c) ∈ t.exchanges →
      c.challenge = v.challenge → v ∈ c.vdfProofs → Sourced ts received v
  | delivered {message : Message} {d : ProofDetail} : message ∈ received →
      message.Carries v.challenge d → v = d.forChallenge v.challenge → Sourced ts received v

theorem Sourced.mono {ts more : List Turn} {received further : List Message} {v : VdfProof}
    (h : Sourced ts received v) (hturns : ts ⊆ more) (hmessages : received ⊆ further) :
    Sourced more further v := by
  cases h with
  | reported htaken hsaid hsame hmem => exact .reported (hturns htaken) hsaid hsame hmem
  | delivered hknown hcarries hmade => exact .delivered (hmessages hknown) hcarries hmade

def Site.fresh {N : Type} (node : N) (plots : PlotCatalog) (clock : Nat) (running : Bool) :
    Site (Observed N) :=
  ⟨⟨node, []⟩, plots, .empty, clock, running⟩

variable {N : Type} {ctx : Context} {co : Collaborators (Site (Observed N))} {t : FleetTimings}
  {incidents : Site (Observed N) → List Incident} {s s₀ : Site (Observed N)} {m m' : Miner}
  {ts : List Turn} {es : List Exchange}

theorem Acquires.sourced {challenge : Bytes32} {iters : UInt64} {v : VdfProof} {turn : Turn}
    (h : Acquires (co.amid t incidents) challenge iters es s v) (hsaid : es ⊆ turn.exchanges)
    (hhonest : s.fleet.Honest s.node.received) : Sourced (turn :: ts) s.node.received v := by
  rcases h with ⟨c, hreported, rfl, hfound⟩ | ⟨d, hcached, rfl⟩
  · obtain ⟨hmem, hsame, -⟩ := Challenge.findVdfProof_mem hfound
    exact .reported List.mem_cons_self (hsaid hreported) hsame.symm hmem
  · obtain ⟨message, hreceived, hcarries⟩ :=
      hhonest.cached challenge d (ProofCache.of_bestAtLeast hcached).1
    exact .delivered hreceived hcarries rfl

theorem Transition.sourced {turn : Turn}
    (h : Transition ctx (co.amid t incidents) m s₀ turn.exchanges m' s)
    (hspoken : Conversation (co.amid t incidents) s₀ turn.exchanges s)
    (hvouched : s₀.Vouches s₀.node.received)
    (hold : ∀ v, m.vdf = some v → Sourced ts s₀.node.received v) :
    ∀ v, m'.vdf = some v → Sourced (turn :: ts) s.node.received v := by
  have hknown : s₀.node.received ⊆ s.node.received := (hvouched.spoken hspoken).known
  have hkept (v : VdfProof) (hstored : m.vdf = some v) : Sourced (turn :: ts) s.node.received v :=
    (hold v hstored).mono (List.subset_cons_self ..) hknown
  generalize hsaid : turn.exchanges = es at h
  cases h with
  | cleared => simp [Miner.cleared]
  | repeated => simp [Miner.cleared]
  | adopted => simp [Miner.adopt, Miner.cleared]
  | @acquired es s v hphase htalk hsource =>
    rintro _ ⟨⟩
    exact hsource.sourced (by simp [hsaid]) (hvouched.spoken htalk).honest
  | _ => exact hkept

variable {node : N} {plots : PlotCatalog} {clock : Nat} {running : Bool}

theorem History.vouches (h : History ctx (co.amid t incidents) (Site.Drifts t) s₀ ts m s)
    (hvouched : s₀.Vouches []) : s.Vouches s.node.received := by
  induction h with
  | start => exact hvouched.now
  | turn fuel _ ih => exact (ih.spoken (Miner.turn_spoken ..)).now
  | aside _ hdrifts ih => exact (ih.drifts hdrifts).now

theorem History.sourced (h : History ctx (co.amid t incidents) (Site.Drifts t) s₀ ts m s)
    (hvouched : s₀.Vouches []) : ∀ v, m.vdf = some v → Sourced ts s.node.received v := by
  induction h with
  | start => simp [Miner.initial, default]
  | turn fuel h ih =>
    exact (Miner.turn_transition ..).sourced (Miner.turn_spoken ..) (h.vouches hvouched) ih
  | aside h hdrifts ih =>
    intro v hstored
    exact (ih v hstored).mono (List.Subset.refl _) ((h.vouches hvouched).drifts hdrifts).known

theorem Site.fresh_vouches : (fresh node plots clock running).Vouches [] :=
  ⟨Fleet.honest_empty, List.nil_subset _⟩

theorem Collaborators.amid_withCache :
    (co.amid t incidents).withCache (fun s => s.fleet.cache) = co.amid t incidents := rfl

/-- Every time proof that a miner has, and every one that it submits next, was reported by the node
for its challenge or carried for its challenge by a message that has been received by then. In a
round it is the challenge of the round; in a submission, that of the proof of space. -/
theorem vdf_provenance (h : History ctx (co.amid t incidents) (Site.Drifts t)
      (.fresh node plots clock running) ts m s) :
    (∀ v, m.vdf = some v → Sourced ts s.node.received v ∧
      (m.phase ≠ .requireChallenge → m.current = some v.challenge)) ∧
    (∀ fuel pack answer,
      .submitProof pack answer ∈ (m.turn ctx (co.amid t incidents) fuel s).exchanges →
      Sourced ts s.node.received pack.vdf ∧ pack.vdf.challenge = pack.pos.challenge) := by
  have hsourced := h.sourced Site.fresh_vouches
  rw [← Collaborators.amid_withCache] at h ⊢
  have hconsistent := h.consistent
  constructor
  · intro v hstored
    refine ⟨hsourced v hstored, fun hbusy => ?_⟩
    have hadopted := hconsistent.adopted hbusy
    rw [hadopted.current, hadopted.vdf v hstored]
  · intro fuel pack answer hsaid
    obtain ⟨hphase, hmade, -⟩ := Miner.turn_fits _ _ _ _ _ _ hsaid
    obtain ⟨-, hstored, -⟩ := Miner.pack?_eq_some hmade
    obtain ⟨hsamePos, hsameVdf, -⟩ := hconsistent.pack_matches hphase hmade
    exact ⟨hsourced _ hstored, hsameVdf.trans hsamePos.symm⟩

namespace Sample

def timelord : Endpoint := ⟨"timelord", 19191⟩

def detail : ProofDetail := ⟨⟨[1]⟩, ⟨[2]⟩, 0, 18446744073709551615, 10⟩

def frame : List UInt8 :=
  match (Message.proof (.ofDetail challenge.challenge detail)).toFrame with
  | .ok frame => frame
  | .error _ => []

/-- The timelord is connected and sends its proof once. -/
def delivery (s : Site (Observed Unit)) : List Incident :=
  if s.node.received.isEmpty then
    [⟨0, .startAll [timelord.render] 0, nofun⟩, ⟨0, .link timelord .connected, nofun⟩,
      ⟨0, .link timelord .announced, nofun⟩, ⟨0, .link timelord (.arrived frame), nofun⟩,
      ⟨0, .link timelord .takeMessage, nofun⟩]
  else []

def idleNode : NodeAccess (Observed Unit) where
  checkReady s := (.ok true, s)
  queryChallenge s := (.ok { challenge with vdfProofs := [] }, s)
  requestVdf _ _ s := (.ok true, s)
  submitProof _ s := (.ok (), s)
  reloadCookie s := (.ok false, s)

def amidDelivery : Collaborators (Site (Observed Unit)) :=
  (Site.collaborators idleNode keys).amid default delivery

def turnsAmid (n : Nat) : List Turn × Miner × Site (Observed Unit) :=
  Miner.turns context amidDelivery 10 (.fresh () ⟨[], default, 0⟩ 0 true) n

theorem history_amid (n : Nat) :
    History context amidDelivery (Site.Drifts default) (.fresh () ⟨[], default, 0⟩ 0 true)
      (turnsAmid n).1 (turnsAmid n).2.1 (turnsAmid n).2.2 :=
  .turns 10 n

end Sample

/-- The sample miner has the proof that was delivered. -/
theorem vdf_provenance_sample :
    (Sample.turnsAmid 3).2.1.vdf = some (Sample.detail.forChallenge Sample.challenge.challenge) ∧
      Sourced (Sample.turnsAmid 3).1 (Sample.turnsAmid 3).2.2.node.received
        (Sample.detail.forChallenge Sample.challenge.challenge) := by
  have hstored : (Sample.turnsAmid 3).2.1.vdf =
      some (Sample.detail.forChallenge Sample.challenge.challenge) := by decide +kernel
  exact ⟨hstored, ((vdf_provenance (Sample.history_amid 3)).1 _ hstored).1⟩

end PlotMiner.Mining
