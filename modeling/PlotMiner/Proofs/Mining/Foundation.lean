import PlotMiner.Proofs.Mining.Round

/-!
# What a submission is founded on

Everything in a pack that is submitted belongs to one round: the challenge that the node reported
when the round began, the best of the candidates that the plots offered for it, and the farmer to
whom the plot of that candidate belongs. A miner that comes to submit has all of it, and what it has
is valid.
-/

namespace PlotMiner.Mining

variable {W : Type}

/-- The pack is for the challenge `c`, and a turn of the round on it has made its proof of space. -/
structure Founded (ctx : Context) (c : Challenge) (round : List Turn) (pack : ProofPack) :
    Prop where
  pos : pack.pos.challenge = c.challenge
  vdf : pack.vdf.challenge = c.challenge
  prevBlockHash : pack.prevBlockHash = c.prevBlockHash
  prevBlockHeight : pack.prevBlockHeight = c.prevBlockHeight
  rewardTo : pack.rewardTo = ctx.rewardTo
  covered : pack.pos.iters ≤ pack.vdf.iters
  proved : ∃ u ∈ round, ∃ s, Proves ctx c u.exchanges pack.pos pack.farmerKey s

variable {ctx : Context} {co : Collaborators W} {cache : W → ProofCache} {aside : W → W → Prop}
  {w₀ w : W} {ts : List Turn} {m : Miner}

theorem Miner.pack?_eq_some {pack : ProofPack} (h : m.pack? ctx = some pack) :
    m.pos = some pack.pos ∧ m.vdf = some pack.vdf ∧ m.farmerKey = some pack.farmerKey ∧
      pack.prevBlockHash = m.queried.prevBlockHash ∧
      pack.prevBlockHeight = m.queried.prevBlockHeight ∧ pack.rewardTo = ctx.rewardTo := by
  simp only [Miner.pack?, Option.bind_eq_bind, Option.bind_eq_some_iff, Option.pure_def,
    Option.some.injEq] at h
  obtain ⟨p, hpos, v, hvdf, k, hfarmerKey, rfl⟩ := h
  exact ⟨hpos, hvdf, hfarmerKey, rfl, rfl, rfl⟩

theorem Miner.Consistent.pack (ctx : Context) (h : m.Consistent)
    (hphase : m.phase = .submitProofs) :
    ∃ pack, m.pack? ctx = some pack ∧ pack.validate = .ok () := by
  obtain ⟨p, k, hpos, hfarmerKey, hsamePos, hexact⟩ := h.proved hphase
  obtain ⟨v, hvdf, hsameVdf, hcovers⟩ := h.timed (.inr hphase)
  have henough : ¬ v.iters < p.iters := by
    rw [hexact]
    exact UInt64.not_lt.2 hcovers
  refine ⟨⟨m.queried.prevBlockHash, m.queried.prevBlockHeight, p, v, k, ctx.rewardTo⟩, ?_, ?_⟩
  · simp [Miner.pack?, hpos, hvdf, hfarmerKey]
  · simp [ProofPack.validate, hsamePos, hsameVdf, henough]

theorem Miner.Consistent.pack_matches {pack : ProofPack} (h : m.Consistent)
    (hphase : m.phase = .submitProofs) (hmade : m.pack? ctx = some pack) :
    pack.pos.challenge = m.queried.challenge ∧ pack.vdf.challenge = m.queried.challenge ∧
      pack.pos.iters ≤ pack.vdf.iters := by
  obtain ⟨hpos, hvdf, -⟩ := Miner.pack?_eq_some hmade
  obtain ⟨p, k, hpos', -, hsamePos, hexact⟩ := h.proved hphase
  obtain ⟨v, hvdf', hsameVdf, hcovers⟩ := h.timed (.inr hphase)
  obtain rfl : pack.pos = p := Option.some.inj (hpos.symm.trans hpos')
  obtain rfl : pack.vdf = v := Option.some.inj (hvdf.symm.trans hvdf')
  exact ⟨hsamePos, hsameVdf, hexact ▸ hcovers⟩

/-- What is submitted is founded on the round in which it is submitted. -/
theorem History.founded (h : History ctx (co.withCache cache) aside w₀ ts m w) {fuel : Nat}
    {pack : ProofPack} {answer : Except Failure Unit}
    (hsaid : .submitProof pack answer ∈ (m.turn ctx (co.withCache cache) fuel w).exchanges) :
    ∃ c round, Round ts c round ∧ Founded ctx c round pack := by
  obtain ⟨hphase, hmade, -⟩ := Miner.turn_fits _ _ _ _ _ _ hsaid
  obtain ⟨hpos, hvdf, hfarmerKey, hhash, hheight, hreward⟩ := Miner.pack?_eq_some hmade
  obtain ⟨hsamePos, hsameVdf, hcovers⟩ := h.consistent.pack_matches hphase hmade
  obtain ⟨round, hisRound, hbacked⟩ := h.told (by simp [hphase])
  exact ⟨m.queried, round, hisRound, {
    pos := hsamePos
    vdf := hsameVdf
    prevBlockHash := hhash
    prevBlockHeight := hheight
    rewardTo := hreward
    covered := hcovers
    proved := hbacked _ _ hpos hfarmerKey }⟩

/-- Every pack that was ever submitted is founded on one round, and nothing is missing when a miner
comes to submit. -/
theorem submissions_founded (h : History ctx (co.withCache cache) aside w₀ ts m w) :
    (∀ later t earlier pack answer, ts = later ++ t :: earlier →
      .submitProof pack answer ∈ t.exchanges →
      ∃ c round, Round earlier c round ∧ Founded ctx c round pack) ∧
    (m.phase = .submitProofs →
      m.pos.isSome ∧ m.vdf.isSome ∧ m.farmerKey.isSome ∧
      ∃ pack, m.pack? ctx = some pack ∧ pack.validate = .ok ()) := by
  constructor
  · intro later t earlier pack answer hsplit hsaid
    obtain ⟨m₁, w₁, fuel, h₁, rfl⟩ := h.taken hsplit
    exact h₁.founded hsaid
  · intro hphase
    obtain ⟨pack, hmade, hvalid⟩ := h.consistent.pack ctx hphase
    obtain ⟨hpos, hvdf, hfarmerKey, -⟩ := Miner.pack?_eq_some hmade
    exact ⟨by simp [hpos], by simp [hvdf], by simp [hfarmerKey], pack, hmade, hvalid⟩

/-- The sample miner submits a pack, and the pack is founded. -/
theorem submissions_founded_sample :
    ((Sample.turns 5).1.any fun t => t.exchanges.any (·.pack?.isSome)) ∧
      ∀ later t earlier pack answer, (Sample.turns 5).1 = later ++ t :: earlier →
        .submitProof pack answer ∈ t.exchanges →
        ∃ c round, Round earlier c round ∧ Founded Sample.context c round pack :=
  ⟨by decide +kernel, (submissions_founded (Sample.history 5)).1⟩

end PlotMiner.Mining
