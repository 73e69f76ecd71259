import PlotMiner.Mining.Rehearsal
import PlotMiner.Proofs.Mining.Transition
import PlotMiner.Proofs.Timelord.Cache

/-!
# Rounds

A round begins with the turn that adopts a challenge and lasts until the miner requires a challenge
again. In each phase of a round a miner has what the phase calls for and nothing that is left from
another round (`Miner.Consistent`), and what it has was obtained in this very round (`Told`).

The cache of the timelords may hold anything at any time. All that is assumed about it is that it
finds proofs the way a `ProofCache` does.
-/

namespace PlotMiner

theorem Challenge.findVdfProof_mem {c : Challenge} {iters : UInt64} {v : VdfProof}
    (h : c.findVdfProof iters = some v) :
    v ∈ c.vdfProofs ∧ v.challenge = c.challenge ∧ iters ≤ v.iters := by
  have hfound := List.find?_some h
  simp only [Bool.and_eq_true, decide_eq_true_eq] at hfound
  exact ⟨List.mem_of_find?_eq_some h, hfound⟩

namespace Mining

variable {W : Type}

/-- The same collaborators, with a cache whose contents depend on the world. -/
def Collaborators.withCache (co : Collaborators W) (cache : W → ProofCache) : Collaborators W :=
  { co with cachedProof := fun challenge iters w => (cache w).bestAtLeast challenge iters }

theorem Acquires.covers {co : Collaborators W} {cache : W → ProofCache} {challenge : Bytes32}
    {iters : UInt64} {es : List Exchange} {w : W} {v : VdfProof}
    (h : Acquires (co.withCache cache) challenge iters es w v) :
    v.challenge = challenge ∧ iters ≤ v.iters := by
  rcases h with ⟨c, -, rfl, hfound⟩ | ⟨d, hcached, rfl⟩
  · exact (Challenge.findVdfProof_mem hfound).2
  · exact ⟨rfl, (ProofCache.of_bestAtLeast hcached).2⟩

namespace Miner

structure Adopted (m : Miner) : Prop where
  current : m.current = some m.queried.challenge
  unsubmitted : m.queried.challenge ∉ m.submitted
  vdf : ∀ v, m.vdf = some v → v.challenge = m.queried.challenge

structure Bare (m : Miner) : Prop where
  pos : m.pos = none
  farmerKey : m.farmerKey = none

/-- There is a proof of space, and the miner waits for the iterations that it asks for. -/
def Proved (m : Miner) : Prop :=
  ∃ p k, m.pos = some p ∧ m.farmerKey = some k ∧ p.challenge = m.queried.challenge ∧
    p.iters = m.iters

/-- There is no proof of space, and the miner waits for as many iterations as a day takes. -/
def Idle (m : Miner) : Prop := m.Bare ∧ m.queried.oneDayIters? = some m.iters

/-- There is a time proof for what the miner has waited for. -/
def Timed (m : Miner) : Prop :=
  ∃ v, m.vdf = some v ∧ v.challenge = m.queried.challenge ∧ m.iters ≤ v.iters

/-- What a miner has in its phase. -/
def Consistent (m : Miner) : Prop :=
  match m.phase with
  | .requireChallenge => True
  | .findPos => m.Adopted ∧ m.Bare
  | .waitVdf => m.Adopted ∧ (m.Proved ∨ m.Idle)
  | .processVdf => m.Adopted ∧ (m.Proved ∨ m.Idle) ∧ m.Timed
  | .submitProofs => m.Adopted ∧ m.Proved ∧ m.Timed

variable {m : Miner}

theorem Consistent.adopted (h : m.Consistent) (hphase : m.phase ≠ .requireChallenge) :
    m.Adopted := by
  unfold Consistent at h
  cases hknown : m.phase <;> simp only [hknown] at h
  case requireChallenge => exact absurd hknown hphase
  all_goals exact h.1

theorem Consistent.bare (h : m.Consistent) (hphase : m.phase = .findPos) : m.Bare := by
  simp only [Consistent, hphase] at h
  exact h.2

theorem Consistent.aim (h : m.Consistent) (hphase : m.phase = .waitVdf ∨ m.phase = .processVdf) :
    m.Proved ∨ m.Idle := by
  rcases hphase with hphase | hphase <;> simp only [Consistent, hphase] at h
  · exact h.2
  · exact h.2.1

theorem Consistent.timed (h : m.Consistent)
    (hphase : m.phase = .processVdf ∨ m.phase = .submitProofs) : m.Timed := by
  rcases hphase with hphase | hphase <;> simp only [Consistent, hphase] at h <;> exact h.2.2

theorem Consistent.proved (h : m.Consistent) (hphase : m.phase = .submitProofs) : m.Proved := by
  simp only [Consistent, hphase] at h
  exact h.2.1

theorem processVdf_of_some {p : SpaceProof} (h : m.pos = some p) :
    m.processVdf = { m with phase := .submitProofs } := by
  simp [processVdf, h]

theorem processVdf_of_none (h : m.pos = none) : m.processVdf = { m with phase := .findPos } := by
  simp [processVdf, h]

end Miner

theorem Transition.consistent {ctx : Context} {co : Collaborators W} {cache : W → ProofCache}
    {m m' : Miner} {es : List Exchange} {w₀ w : W}
    (h : Transition ctx (co.withCache cache) m w₀ es m' w) (hm : m.Consistent) : m'.Consistent := by
  cases h with
  | kept => exact hm
  | cleared hphase => simp [Miner.Consistent, Miner.cleared, hphase]
  | repeated c hphase hknown => simp [Miner.Consistent, Miner.cleared, hphase]
  | adopted c hphase hnew =>
    exact ⟨⟨rfl, hnew, by simp [Miner.adopt, Miner.cleared]⟩, ⟨rfl, rfl⟩⟩
  | unproved iters hphase hday =>
    simp only [Miner.Consistent, hphase] at hm
    obtain ⟨⟨hcurrent, hnew, hvdf⟩, hbare⟩ := hm
    exact ⟨⟨hcurrent, hnew, hvdf⟩, .inr ⟨⟨hbare.pos, hbare.farmerKey⟩, hday⟩⟩
  | proved s farmerKey p hphase hproves =>
    simp only [Miner.Consistent, hphase] at hm
    obtain ⟨⟨hcurrent, hnew, hvdf⟩, hbare⟩ := hm
    refine ⟨⟨hcurrent, hnew, hvdf⟩, .inl ⟨p, farmerKey, rfl, rfl, ?_, ?_⟩⟩
    · rw [hproves.made]; rfl
    · rw [hproves.made]; rfl
  | abandoned hphase => simp [Miner.Consistent]
  | acquired v hphase _ hsource =>
    simp only [Miner.Consistent, hphase] at hm
    obtain ⟨⟨hcurrent, hnew, hvdf⟩, haim⟩ := hm
    obtain ⟨hsame, hcovered⟩ := hsource.covers
    refine ⟨⟨hcurrent, hnew, ?_⟩, ?_, ⟨v, rfl, hsame, hcovered⟩⟩
    · rintro _ ⟨⟩
      exact hsame
    · rcases haim with ⟨p, k, haim⟩ | ⟨⟨hpos, hkey⟩, hday⟩
      · exact .inl ⟨p, k, haim⟩
      · exact .inr ⟨⟨hpos, hkey⟩, hday⟩
  | processed hphase =>
    simp only [Miner.Consistent, hphase] at hm
    obtain ⟨⟨hcurrent, hnew, hvdf⟩, ⟨p, k, hpos, hproved⟩ | ⟨⟨hpos, hkey⟩, hday⟩, htimed⟩ := hm
    · rw [Miner.processVdf_of_some hpos]
      exact ⟨⟨hcurrent, hnew, hvdf⟩, ⟨p, k, hpos, hproved⟩, htimed⟩
    · rw [Miner.processVdf_of_none hpos]
      exact ⟨⟨hcurrent, hnew, hvdf⟩, ⟨hpos, hkey⟩⟩
  | dropped => simp [Miner.Consistent]
  | refused => simp [Miner.Consistent]
  | accepted => simp [Miner.Consistent]

/-- The turn takes the miner into a round, on the one challenge that the node reports in it. -/
def Turn.Adopts (t : Turn) (c : Challenge) : Prop :=
  t.before.phase = .requireChallenge ∧ t.after.phase ≠ .requireChallenge ∧
    t.exchanges.filterMap Exchange.reported? = [c]

/-- The turns that were taken since the last adoption, the latest first, with the challenge that was
adopted. The miner has not required a challenge in the meantime. -/
inductive Round : List Turn → Challenge → List Turn → Prop
  | adopted {t ts c} : t.Adopts c → Round (t :: ts) c []
  | further {t ts c round} :
      Round ts c round → t.before.phase ≠ .requireChallenge → Round (t :: ts) c (t :: round)

/-- A round is in progress on the challenge that the miner has, and a turn of that round has made
the proof of space that the miner has. -/
def Told (ctx : Context) (ts : List Turn) (m : Miner) : Prop :=
  ∃ round, Round ts m.queried round ∧ ∀ p k, m.pos = some p → m.farmerKey = some k →
    ∃ u ∈ round, ∃ s, Proves ctx m.queried u.exchanges p k s

/-- A turn that leaves the proofs of space alone adds nothing to what is told. -/
theorem Told.further {ctx : Context} {ts : List Turn} {t : Turn} (htold : Told ctx ts t.before)
    (hbusy : t.before.phase ≠ .requireChallenge) (hqueried : t.after.queried = t.before.queried)
    (hpos : t.after.pos = t.before.pos) (hfarmerKey : t.after.farmerKey = t.before.farmerKey) :
    Told ctx (t :: ts) t.after := by
  obtain ⟨round, hisRound, hbacked⟩ := htold
  refine ⟨t :: round, hqueried ▸ hisRound.further hbusy, ?_⟩
  intro p k hp hk
  obtain ⟨u, hu, s, hproves⟩ := hbacked p k (hpos ▸ hp) (hfarmerKey ▸ hk)
  exact ⟨u, List.mem_cons_of_mem _ hu, s, hqueried ▸ hproves⟩

theorem Transition.told {ctx : Context} {co : Collaborators W} {t : Turn} {ts : List Turn}
    {w₀ w : W} (h : Transition ctx co t.before w₀ t.exchanges t.after w)
    (htold : t.before.phase ≠ .requireChallenge → Told ctx ts t.before)
    (hbusy : t.after.phase ≠ .requireChallenge) : Told ctx (t :: ts) t.after := by
  obtain ⟨m, es, m'⟩ := t
  dsimp only at h htold hbusy ⊢
  cases h with
  | kept => exact (htold hbusy).further hbusy rfl rfl rfl
  | cleared hphase => exact absurd hphase hbusy
  | repeated c hphase => exact absurd hphase hbusy
  | adopted c hphase =>
    refine ⟨[], .adopted ⟨hphase, hbusy, rfl⟩, ?_⟩
    intro p k hp
    cases hp
  | unproved iters hphase =>
    have hbefore : m.phase ≠ .requireChallenge := by simp [hphase]
    exact (htold hbefore).further hbefore rfl rfl rfl
  | proved s farmerKey p hphase hproves =>
    have hbefore : m.phase ≠ .requireChallenge := by simp [hphase]
    obtain ⟨round, hisRound, -⟩ := htold hbefore
    refine ⟨_ :: round, hisRound.further hbefore, ?_⟩
    rintro _ _ ⟨⟩ ⟨⟩
    exact ⟨_, List.mem_cons_self, s, hproves⟩
  | abandoned => exact absurd rfl hbusy
  | acquired v hphase =>
    have hbefore : m.phase ≠ .requireChallenge := by simp [hphase]
    exact (htold hbefore).further hbefore rfl rfl rfl
  | processed hphase =>
    have hbefore : m.phase ≠ .requireChallenge := by simp [hphase]
    exact (htold hbefore).further hbefore rfl rfl rfl
  | dropped => exact absurd rfl hbusy
  | refused => exact absurd rfl hbusy
  | accepted => exact absurd rfl hbusy

variable {ctx : Context} {co : Collaborators W} {cache : W → ProofCache} {aside : W → W → Prop}
  {w₀ w : W} {ts later earlier : List Turn} {t : Turn} {m : Miner}

theorem History.consistent (h : History ctx (co.withCache cache) aside w₀ ts m w) :
    m.Consistent := by
  induction h with
  | start => trivial
  | turn fuel _ ih => exact (Miner.turn_transition ..).consistent ih
  | aside _ _ ih => exact ih

theorem History.told (h : History ctx co aside w₀ ts m w) (hbusy : m.phase ≠ .requireChallenge) :
    Told ctx ts m := by
  induction h with
  | start => exact absurd rfl hbusy
  | @turn ts m w fuel _ ih =>
    have htransition := Miner.turn_transition ctx co m w fuel
    exact Transition.told (t := m.turn ctx co fuel w) htransition ih hbusy
  | aside _ _ ih => exact ih hbusy

/-- The turn requests a time proof from the node, or from the timelords. -/
def Turn.Requests (t : Turn) (challenge : Bytes32) (iters : UInt64) : Prop :=
  (∃ answer, Exchange.requestVdf challenge iters answer ∈ t.exchanges) ∨
    ∃ netspace, Exchange.broadcast ⟨challenge, iters, netspace⟩ ∈ t.exchanges

theorem Turn.Requests.fits {challenge : Bytes32} {iters : UInt64} {fuel : Nat}
    (h : (m.turn ctx co fuel w).Requests challenge iters) :
    m.phase = .waitVdf ∧ challenge = m.queried.challenge ∧ iters = m.iters := by
  rcases h with ⟨answer, hsaid⟩ | ⟨netspace, hsaid⟩
  · exact Miner.turn_fits ctx co m w fuel _ hsaid
  · exact Miner.turn_fits ctx co m w fuel _ hsaid

/-- What is requested is requested for the adopted challenge. -/
theorem History.requests_told (h : History ctx (co.withCache cache) aside w₀ ts m w) {fuel : Nat}
    {challenge : Bytes32} {iters : UInt64}
    (hrequests : (m.turn ctx (co.withCache cache) fuel w).Requests challenge iters) :
    m.current = some challenge ∧
    ∃ c round, Round ts c round ∧ challenge = c.challenge ∧
      ((∃ p k s, m.pos = some p ∧ p.iters = iters ∧ ∃ u ∈ round, Proves ctx c u.exchanges p k s) ∨
        (m.pos = none ∧ c.oneDayIters? = some iters)) := by
  obtain ⟨hphase, rfl, rfl⟩ := hrequests.fits
  have hbusy : m.phase ≠ .requireChallenge := by simp [hphase]
  obtain ⟨round, hisRound, hbacked⟩ := h.told hbusy
  refine ⟨(h.consistent.adopted hbusy).current, m.queried, round, hisRound, rfl, ?_⟩
  rcases h.consistent.aim (.inl hphase) with ⟨p, k, hpos, hfarmerKey, -, hsame⟩ | ⟨hbare, hday⟩
  · obtain ⟨u, hu, s, hproves⟩ := hbacked p k hpos hfarmerKey
    exact .inl ⟨p, k, s, hpos, hsame, u, hu, hproves⟩
  · exact .inr ⟨hbare.pos, hday⟩

/-- In every phase of a round the miner is on the challenge of the round, which is none for which
proofs were submitted. It has no proof of space while it looks for one; while it waits it either has
one, for whose iterations it waits, or waits for those of a day; and once it has waited, its time
proof covers them. So whatever is requested is requested for the adopted challenge, with the
iterations of the chosen proof of space or with those of a day. -/
theorem round_invariant (h : History ctx (co.withCache cache) aside w₀ ts m w) :
    (m.phase ≠ .requireChallenge →
      m.current = some m.queried.challenge ∧ m.queried.challenge ∉ m.submitted) ∧
    (m.phase = .findPos → m.pos = none ∧ m.farmerKey = none) ∧
    (m.phase = .waitVdf ∨ m.phase = .processVdf →
      (∃ p k, m.pos = some p ∧ m.farmerKey = some k ∧ m.current = some p.challenge ∧
        p.iters = m.iters) ∨
      (m.pos = none ∧ m.farmerKey = none ∧ m.queried.oneDayIters? = some m.iters)) ∧
    (m.phase = .processVdf ∨ m.phase = .submitProofs →
      ∃ v, m.vdf = some v ∧ m.current = some v.challenge ∧ m.iters ≤ v.iters) ∧
    (∀ later t earlier, ts = later ++ t :: earlier →
      ∀ challenge iters, t.Requests challenge iters →
        t.before.current = some challenge ∧
        ∃ c round, Round earlier c round ∧ challenge = c.challenge ∧
          ((∃ p k s, t.before.pos = some p ∧ p.iters = iters ∧
              ∃ u ∈ round, Proves ctx c u.exchanges p k s) ∨
            (t.before.pos = none ∧ c.oneDayIters? = some iters))) := by
  have hconsistent := h.consistent
  refine ⟨?_, ?_, ?_, ?_, ?_⟩
  · intro hbusy
    exact ⟨(hconsistent.adopted hbusy).current, (hconsistent.adopted hbusy).unsubmitted⟩
  · intro hphase
    exact ⟨(hconsistent.bare hphase).pos, (hconsistent.bare hphase).farmerKey⟩
  · intro hphase
    have hbusy : m.phase ≠ .requireChallenge := by
      rcases hphase with hphase | hphase <;> simp [hphase]
    rcases hconsistent.aim hphase with ⟨p, k, hpos, hfarmerKey, hsame, hcovers⟩ | ⟨hbare, hday⟩
    · exact .inl ⟨p, k, hpos, hfarmerKey, hsame ▸ (hconsistent.adopted hbusy).current, hcovers⟩
    · exact .inr ⟨hbare.pos, hbare.farmerKey, hday⟩
  · intro hphase
    have hbusy : m.phase ≠ .requireChallenge := by
      rcases hphase with hphase | hphase <;> simp [hphase]
    obtain ⟨v, hvdf, hsame, hcovers⟩ := hconsistent.timed hphase
    exact ⟨v, hvdf, hsame ▸ (hconsistent.adopted hbusy).current, hcovers⟩
  · intro later t earlier hsplit challenge iters hrequests
    obtain ⟨m₁, w₁, fuel, h₁, rfl⟩ := h.taken hsplit
    exact h₁.requests_told hrequests

namespace Sample

def challenge : Challenge :=
  { (default : Challenge) with
    challenge := .ofNat 32 7
    prevVdfIters := 100
    targetDuration := 60
    vdfProofs := [⟨.ofNat 32 7, ⟨[1]⟩, ⟨[2]⟩, 0, 18446744073709551615, 10⟩] }

def always {α : Type} (a : α) : List (PreparedAnswer α) := [⟨.ok a, 1, false, []⟩]

def rehearsal : Rehearsal :=
  ⟨always true, always challenge, always true, always (), always false, false, []⟩

def plot : Plot := .steady ⟨"a.plot"⟩ default 32 default (.ok [⟨[3]⟩]) (.ok ⟨[4]⟩)

/-- A miner with one plot, whose node has a single challenge and a time proof for it. -/
def site : Logged (Site Rehearsal) := ⟨⟨rehearsal, ⟨[plot], default, 0⟩, .empty, 0, true⟩, []⟩

def context : Context := .new "reward" [(default, .ofNat 32 5)]

def keys : Keys.KeyEngine Failure := .steady (.ok default) (.ok default)

def collaborators : Collaborators (Logged (Site Rehearsal)) :=
  (Rehearsal.collaborators keys).withCache fun l => l.world.fleet.cache

def turns (n : Nat) : List Turn × Miner × Logged (Site Rehearsal) :=
  Miner.turns context collaborators 10 site n

theorem history (n : Nat) :
    History context collaborators Eq site (turns n).1 (turns n).2.1 (turns n).2.2 :=
  .turns 10 n

end Sample

/-- When the sample miner comes to submit, its time proof covers what it has waited for. -/
theorem round_invariant_sample :
    (Sample.turns 4).2.1.phase = .submitProofs ∧
      ∃ v, (Sample.turns 4).2.1.vdf = some v ∧
        (Sample.turns 4).2.1.current = some v.challenge ∧ (Sample.turns 4).2.1.iters ≤ v.iters := by
  have hphase : (Sample.turns 4).2.1.phase = .submitProofs := by decide +kernel
  exact ⟨hphase, (round_invariant (Sample.history 4)).2.2.2.1 (.inr hphase)⟩

end Mining

end PlotMiner
