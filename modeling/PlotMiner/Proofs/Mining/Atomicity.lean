import PlotMiner.Proofs.Mining.Provenance
import PlotMiner.Proofs.Mining.Search

/-!
# Steps that fail

A step fails only while a challenge is required, and because of the node: it has not said whether it
is ready, or it has not reported a challenge (`Miner.step_failed`). In the first case nothing has
been done yet. In the second the round has been cleared as a whole, and the request to the timelords
with it. An exit, too, leaves the miner as it was (`Miner.step_exit`).

The timelords do not wait for the miner. So the cache may gain proofs while a step fails, but none
is lost from it.
-/

namespace PlotMiner

namespace Timelord.Fleet

/-- From one state of a fleet to another no proof is lost from the cache. Only `news` changes the
cache, and no request becomes active unless one is `asked`. -/
structure Follows (news asked : Prop) (f f' : Fleet) : Prop where
  proofs : ∀ c, f.cache.proofs c <+: f'.cache.proofs c
  cache : ¬ news → f'.cache = f.cache
  idle : ¬ asked → f.active = none → f'.active = none

variable {news asked : Prop} {f f' f'' : Fleet}

namespace Follows

theorem of_eq (hcache : f'.cache = f.cache) (hactive : f'.active = f.active) :
    Follows news asked f f' where
  proofs _ := hcache ▸ List.prefix_refl _
  cache _ := hcache
  idle _ hnone := hactive.trans hnone

theorem refl (f : Fleet) : Follows news asked f f := .of_eq rfl rfl

theorem trans (h : Follows news asked f f') (h' : Follows news asked f' f'') :
    Follows news asked f f'' where
  proofs c := (h.proofs c).trans (h'.proofs c)
  cache hquiet := (h'.cache hquiet).trans (h.cache hquiet)
  idle hunasked hnone := h'.idle hunasked (h.idle hunasked hnone)

theorem mono {news' asked' : Prop} (h : Follows news asked f f') (hknown : news → news')
    (htold : asked → asked') : Follows news' asked' f f' where
  proofs := h.proofs
  cache hquiet := h.cache (mt hknown hquiet)
  idle hunasked := h.idle (mt htold hunasked)

end Follows

theorem follows_onProof (f : Fleet) (challenge : Bytes32) (d : ProofDetail) (hknown : news) :
    Follows news asked f (f.onProof challenge d) where
  proofs c := by
    rw [onProof, ProofCache.proofs_record]
    split
    · exact List.prefix_append ..
    · exact List.prefix_refl _
  cache hquiet := absurd hknown hquiet
  idle _ := id

theorem respects_follows (news asked : Prop) :
    Respects (fun _ _ => news) (Follows news asked) where
  refl := .refl
  trans := .trans
  connect _ _ := .of_eq rfl rfl
  answer _ _ := .of_eq rfl rfl
  lose _ := .of_eq rfl rfl
  pending _ _ := .of_eq rfl rfl
  record := follows_onProof

/-- Of all that links do, only the handling of a message changes the cache. -/
theorem follows_handle (f : Fleet) (t : FleetTimings) (now : Nat) {event : FleetEvent}
    (hunreported : ∀ challenge d, event ≠ .reportProof challenge d) :
    Follows (∃ e, event = .link e .takeMessage) (∃ request n, event = .broadcast request n) f
      (f.handle t now event).1 := by
  have hdriven : Follows (∃ e, event = .link e .takeMessage)
      (∃ request n, event = .broadcast request n) f (f.driven t now event) :=
    of_driven t now f event (.refl f) fun _ _ _ _ _ => .of_eq rfl rfl
  refine hdriven.trans ((respects_follows _ _).handle t now f event ?_ ?_ ?_ ?_)
  · rintro challenge d (hmade | htold)
    · exact absurd hmade (hunreported challenge d)
    · obtain ⟨k, -, htook, -⟩ := proof_of_handle htold
      exact ⟨k, htook⟩
  · intro request n hasked
    exact ⟨fun c => List.prefix_refl _, fun _ => rfl, fun hno => absurd ⟨request, n, hasked⟩ hno⟩
  · exact fun _ => ⟨fun c => List.prefix_refl _, fun _ => rfl, fun _ _ => rfl⟩
  · exact fun _ => .of_eq rfl rfl

end Timelord.Fleet

namespace Mining

open Timelord

def Incident.strike (t : FleetTimings) (f : Fleet) (i : Incident) : Fleet :=
  (f.handle t i.time i.event).1

variable {N : Type}

/-- Incidents that the site may meet with, and nothing else, have made one fleet of another. -/
def Suffers (t : FleetTimings) (incidents : Site (Observed N) → List Incident) (f f' : Fleet) :
    Prop :=
  ∃ is : List Incident, (∀ i ∈ is, ∃ s, i ∈ incidents s) ∧ f' = is.foldl (Incident.strike t) f

section

variable {α : Type} {t : FleetTimings} {incidents : Site (Observed N) → List Incident}

theorem Site.fleet_meet (s : Site (Observed N)) (is : List Incident) :
    (s.meet t is).fleet = is.foldl (Incident.strike t) s.fleet := by
  induction is generalizing s with
  | nil => rfl
  | cons i is ih => exact ih (s.befall t i)

theorem Site.suffers_meet (s : Site (Observed N)) :
    Suffers t incidents s.fleet (s.meet t (incidents s)).fleet :=
  ⟨incidents s, fun _ hmem => ⟨s, hmem⟩, s.fleet_meet (incidents s)⟩

theorem Site.suffers_ask {question : Site (Observed N) → α × Site (Observed N)} {answer : α}
    {s s' : Site (Observed N)} (hanswered : Site.ask t incidents question s = (answer, s')) :
    Suffers t incidents s.fleet s'.fleet := by
  obtain rfl : _ = s' := congrArg Prod.snd hanswered
  exact s.suffers_meet

namespace Suffers

variable {f f' f'' : Fleet}

theorem trans (h : Suffers t incidents f f') (h' : Suffers t incidents f' f'') :
    Suffers t incidents f f'' := by
  obtain ⟨is, hmet, rfl⟩ := h
  obtain ⟨js, hmet', rfl⟩ := h'
  refine ⟨is ++ js, ?_, (List.foldl_append ..).symm⟩
  intro i hmem
  exact (List.mem_append.1 hmem).elim (hmet i) (hmet' i)

theorem follows (h : Suffers t incidents f f') :
    Fleet.Follows (∃ s, ∃ i ∈ incidents s, ∃ e, i.event = .link e .takeMessage)
      (∃ s, ∃ i ∈ incidents s, ∃ request n, i.event = .broadcast request n) f f' := by
  obtain ⟨is, hmet, rfl⟩ := h
  induction is generalizing f with
  | nil => exact .refl f
  | cons i is ih =>
    obtain ⟨s, hmem⟩ := hmet i List.mem_cons_self
    have hfirst := f.follows_handle t i.time i.unreported
    refine .trans (hfirst.mono ?_ ?_) (ih fun j hmem => hmet j (List.mem_cons_of_mem _ hmem))
    · intro htaken
      exact ⟨s, i, hmem, htaken⟩
    · intro hasked
      exact ⟨s, i, hmem, hasked⟩

end Suffers

end

namespace Miner

variable {W : Type}

/-- What a miner does that fails in the world `w`: what is said, and what is left. -/
inductive Fails (co : Collaborators W) (m : Miner) (w : W) (f : Failure) :
    List Exchange → Miner → W → Prop
  | unready {w'} : co.checkReady w = (.error f, w') →
      Fails co m w f [.checkReady (.error f)] m w'
  | unreported {w₁ w'} : co.checkReady w = (.ok true, w₁) →
      co.queryChallenge (co.clearActive w₁) = (.error f, w') →
      Fails co m w f [.queryChallenge (.error f), .clearActive, .checkReady (.ok true)] m.cleared w'

variable {ctx : Context} {co : Collaborators W} {m : Miner} {w : W} {f : Failure} {e : Exit}
  {fuel : Nat}

theorem waitVdf_continues : (∀ f, (m.waitVdf ctx co fuel w).1 ≠ .failed f) ∧
    ∀ e, (m.waitVdf ctx co fuel w).1 ≠ .exit e := by
  unfold waitVdf
  split
  · simp
  · split <;> simp

/-- Only the first phase can fail, and it has asked the node for nothing more by then. -/
theorem step_failed (h : (m.step ctx co fuel w).1 = .failed f) :
    m.phase = .requireChallenge ∧ Fails co m w f (m.turn ctx co fuel w).exchanges
      (m.step ctx co fuel w).2.1 (m.step ctx co fuel w).2.2 := by
  unfold turn
  cases hphase : m.phase with
  | requireChallenge =>
    refine ⟨rfl, ?_⟩
    simp only [step, hphase] at h ⊢
    rcases hready : co.checkReady w with ⟨g | b, w₁⟩
    · obtain rfl : g = f := by simpa [requireChallenge, hready] using h
      simpa [requireChallenge, hready] using Fails.unready hready
    cases b with
    | false => simp [requireChallenge, hready] at h
    | true =>
      rcases hreply : co.queryChallenge (co.clearActive w₁) with ⟨g | c, w₂⟩
      · obtain rfl : g = f := by simpa [requireChallenge, hready, hreply] using h
        simpa [requireChallenge, hready, hreply] using Fails.unreported hready hreply
      · by_cases hknown : m.cleared.isSubmitted c.challenge <;>
          simp [requireChallenge, hready, hreply, hknown] at h
  | findPos =>
    simp only [step, hphase] at h
    have hsearch : Search ctx co m w (m.findPos ctx co w) := findPos_search
    generalize m.findPos ctx co w = r at h hsearch
    cases hsearch <;> simp at h
  | waitVdf =>
    simp only [step, hphase] at h
    exact absurd h (waitVdf_continues.1 f)
  | processVdf => simp [step, hphase] at h
  | submitProofs => simp [step, hphase] at h

/-- Mining ends in a step only because the chosen plot is not the farmer's. -/
theorem step_exit (h : (m.step ctx co fuel w).1 = .exit e) :
    m.phase = .findPos ∧ (∃ path, e = .plotIdMismatch path) ∧ (m.step ctx co fuel w).2.1 = m := by
  cases hphase : m.phase with
  | requireChallenge =>
    simp only [step, hphase] at h
    obtain hgoes | ⟨f, hfails⟩ := requireChallenge_fst ctx co m w
    · simp [hgoes] at h
    · simp [hfails] at h
  | findPos =>
    refine ⟨rfl, ?_⟩
    simp only [step, hphase] at h ⊢
    have hsearch : Search ctx co m w (m.findPos ctx co w) := findPos_search
    generalize m.findPos ctx co w = r at h hsearch
    cases hsearch with
    | mismatched path => exact ⟨⟨path, (Outcome.exit.inj h).symm⟩, rfl⟩
    | settled => simp at h
    | revoked => simp at h
    | tooLarge => simp at h
    | endless => simp at h
  | waitVdf =>
    simp only [step, hphase] at h
    exact absurd h (waitVdf_continues.2 e)
  | processVdf => simp [step, hphase] at h
  | submitProofs => simp [step, hphase] at h

end Miner

/-- Whatever the timelords do meanwhile, a step that fails leaves the miner where a challenge is
required, with what it remembers. No proof is lost from the cache, which stays the same unless a
message of a timelord is handled. If the node has not said whether it is ready, nothing has been
done. Otherwise the round is cleared as a whole, and the active request with it. A step that ends
the mining leaves the miner as it was, without a proof of space, and has requested and submitted
nothing. -/
theorem failed_step_atomic {ctx : Context} {co : Collaborators (Site (Observed N))}
    {t : FleetTimings} {incidents : Site (Observed N) → List Incident} {s₀ s : Site (Observed N)}
    {ts : List Turn} {m : Miner}
    (h : History ctx (co.amid t incidents) (Site.Drifts t) s₀ ts m s) (fuel : Nat) :
    let after := m.step ctx (co.amid t incidents) fuel s
    let turn := m.turn ctx (co.amid t incidents) fuel s
    (∀ f, after.1 = .failed f →
      m.phase = .requireChallenge ∧ after.2.1.phase = .requireChallenge ∧
      after.2.1.submitted = m.submitted ∧ after.2.1.vdfSpeed = m.vdfSpeed ∧
      after.2.1.queried = m.queried ∧
      (∀ c, s.fleet.cache.proofs c <+: after.2.2.fleet.cache.proofs c) ∧
      ((∀ s, ∀ i ∈ incidents s, ∀ e, i.event ≠ .link e .takeMessage) →
        after.2.2.fleet.cache = s.fleet.cache) ∧
      ((turn.exchanges = [.checkReady (.error f)] ∧ after.2.1 = m ∧
          after.2.2 = ((co.amid t incidents).checkReady s).2 ∧
          Suffers t incidents s.fleet after.2.2.fleet) ∨
        (turn.exchanges = [.queryChallenge (.error f), .clearActive, .checkReady (.ok true)] ∧
          after.2.1.pos = none ∧ after.2.1.vdf = none ∧ after.2.1.farmerKey = none ∧
          after.2.1.current = none ∧ after.2.1.iters = 0 ∧
          (∃ between, Suffers t incidents s.fleet between ∧
            Suffers t incidents between.clearActive after.2.2.fleet) ∧
          ((∀ s, ∀ i ∈ incidents s, ∀ request n, i.event ≠ .broadcast request n) →
            after.2.2.fleet.active = none)))) ∧
    (∀ e, after.1 = .exit e →
      m.phase = .findPos ∧ (∃ path, e = .plotIdMismatch path) ∧ after.2.1 = m ∧ m.pos = none ∧
      (∀ challenge iters, ¬ turn.Requests challenge iters) ∧
      ∀ pack answer, .submitProof pack answer ∉ turn.exchanges) := by
  intro after turn
  constructor
  · intro f hfailed
    obtain ⟨hphase, hfails⟩ := Miner.step_failed hfailed
    change Miner.Fails _ m s f turn.exchanges after.2.1 after.2.2 at hfails
    generalize turn.exchanges = es at hfails ⊢
    generalize after.2.1 = m' at hfails ⊢
    generalize after.2.2 = s' at hfails ⊢
    cases hfails with
    | unready hready =>
      have hmet : Suffers t incidents s.fleet s'.fleet := Site.suffers_ask hready
      refine ⟨hphase, hphase, rfl, rfl, rfl, hmet.follows.proofs, ?_, .inl ⟨rfl, rfl, ?_, hmet⟩⟩
      · intro hquiet
        exact hmet.follows.cache (by simpa using hquiet)
      · rw [hready]
    | @unreported s₁ _ hready hreply =>
      -- Incidents come before each of the three calls, and only the second one touches the fleet.
      have hfirst : Suffers t incidents s.fleet s₁.fleet := Site.suffers_ask hready
      have hsecond : Suffers t incidents s₁.fleet (s₁.meet t (incidents s₁)).fleet :=
        s₁.suffers_meet
      have hbefore := hfirst.trans hsecond
      have hlater : Suffers t incidents (s₁.meet t (incidents s₁)).fleet.clearActive s'.fleet :=
        Site.suffers_ask hreply
      refine ⟨hphase, hphase, rfl, rfl, rfl, ?_, ?_,
        .inr ⟨rfl, rfl, rfl, rfl, rfl, rfl, ⟨_, hbefore, hlater⟩, ?_⟩⟩
      · intro c
        exact (hbefore.follows.proofs c).trans (hlater.follows.proofs c)
      · intro hquiet
        have hunmoved : s'.fleet.cache = (s₁.meet t (incidents s₁)).fleet.cache :=
          hlater.follows.cache (by simpa using hquiet)
        exact hunmoved.trans (hbefore.follows.cache (by simpa using hquiet))
      · intro hunasked
        exact hlater.follows.idle (by simpa using hunasked) rfl
  · intro e hexits
    obtain ⟨hphase, hmismatch, hsame⟩ := Miner.step_exit hexits
    -- A miner that searches has no proof of space yet, and neither requests nor submits anything.
    rw [← Collaborators.amid_withCache] at h
    refine ⟨hphase, hmismatch, hsame, (h.consistent.bare hphase).pos, ?_, ?_⟩
    · intro challenge iters hrequests
      have hwaits := hrequests.fits.1
      simp [hphase] at hwaits
    · intro pack answer hsaid
      have hsubmits := (Miner.turn_fits _ _ _ _ _ _ hsaid).1
      simp [hphase] at hsubmits

namespace Sample

/-- The node cannot be reached any more once proofs were submitted to it. -/
def fragileNode : NodeAccess (Observed Bool) where
  checkReady s := (.ok true, s)
  queryChallenge s := (if s.node.node then .error (.net "gone") else .ok challenge, s)
  requestVdf _ _ s := (.ok true, s)
  submitProof _ s := (.ok (), { s with node := { s.node with node := true } })
  reloadCookie s := (.ok false, s)

def undisturbed : Collaborators (Site (Observed Bool)) :=
  (Site.collaborators fragileNode keys).amid default fun _ => []

def freshSite : Site (Observed Bool) := .fresh false ⟨[plot], default, 0⟩ 0 true

def turnsUndisturbed (n : Nat) : List Turn × Miner × Site (Observed Bool) :=
  Miner.turns context undisturbed 10 freshSite n

theorem history_undisturbed (n : Nat) :
    History context undisturbed (Site.Drifts default) freshSite (turnsUndisturbed n).1
      (turnsUndisturbed n).2.1 (turnsUndisturbed n).2.2 :=
  .turns 10 n

end Sample

/-- The sample miner has both proofs from its round when it fails to get another challenge, and
nothing of the round afterwards. -/
theorem failed_step_atomic_gone :
    ∃ ts m s,
      History Sample.context Sample.undisturbed (Site.Drifts default) Sample.freshSite ts m s ∧
      m.pos.isSome ∧ m.vdf.isSome ∧ s.fleet.active.isSome ∧
      let after := m.step Sample.context Sample.undisturbed 10 s
      after.1 = .failed (.net "gone") ∧ after.2.1.submitted = m.submitted ∧
        after.2.2.fleet.cache = s.fleet.cache ∧ after.2.1.pos = none ∧ after.2.1.vdf = none ∧
        after.2.2.fleet.active = none := by
  obtain ⟨ts, m, s, hhistory, hpos, hvdf, hactive, hfailed, hasked⟩ :
      ∃ ts m s,
        History Sample.context Sample.undisturbed (Site.Drifts default) Sample.freshSite ts m s ∧
        m.pos.isSome ∧ m.vdf.isSome ∧ s.fleet.active.isSome ∧
        (m.step Sample.context Sample.undisturbed 10 s).1 = .failed (.net "gone") ∧
        (m.turn Sample.context Sample.undisturbed 10 s).exchanges.length = 3 :=
    ⟨_, _, _, Sample.history_undisturbed 5, by decide +kernel⟩
  obtain ⟨-, -, hsubmitted, -, -, -, hcache, ⟨hsaid, -⟩ | ⟨-, hnoPos, hnoVdf, -, -, -, -, hidle⟩⟩ :=
    (failed_step_atomic hhistory 10).1 _ hfailed
  · have halone : (m.turn Sample.context Sample.undisturbed 10 s).exchanges.length = 1 :=
      congrArg List.length hsaid
    rw [halone] at hasked
    cases hasked
  · exact ⟨ts, m, s, hhistory, hpos, hvdf, hactive, hfailed, hsubmitted,
      hcache fun _ i hmem => absurd hmem List.not_mem_nil, hnoPos, hnoVdf,
      hidle fun _ i hmem => absurd hmem List.not_mem_nil⟩

end Mining

end PlotMiner
