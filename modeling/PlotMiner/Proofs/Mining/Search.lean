import PlotMiner.Mining.Miner

/-!
# How a search for a proof of space goes

A search ends in a wait, with or without a proof of space; or it drops the plots of a farmer without
a secret key; or it ends the mining, because the chosen plot is not the farmer's. It never fails
(`Miner.findPos_search`). The step before it, which asks the node for a challenge, goes on or fails
(`Miner.requireChallenge_fst`).
-/

namespace PlotMiner.Mining

variable {W : Type}

/-- Neither the plots nor the keys change anything when they are asked. -/
structure Collaborators.Still (co : Collaborators W) : Prop where
  candidates : ∀ c b w, (co.candidates c b w).2 = w
  fullProof : ∀ p c i w, (co.fullProof p c i w).2 = w
  localKey : ∀ k w, (co.localKey k w).2 = w
  plotId : ∀ k f t w, (co.plotId k f t w).2 = w

namespace Miner

/-- The candidate that the miner chooses among those that its plots offer. -/
def choice (ctx : Context) (co : Collaborators W) (m : Miner) (w : W) :
    Except SelectionError ScoredCandidate :=
  selectBest (candidatesOf (co.candidates m.queried.challenge m.queried.filterBits w).1)
    m.queried.challenge (m.target ctx)

/-- What a search comes to that begins in the world `w`. -/
inductive Search (ctx : Context) (co : Collaborators W) (m : Miner) (w : W) :
    Outcome × Miner × W → Prop
  | settled {m' w'} : m'.phase = .waitVdf → (co.Still → w' = w) →
      Search ctx co m w (.continued, m', w')
  | revoked {w'} (s : ScoredCandidate) : m.choice ctx co w = .ok s →
      ctx.farmerKeys.find? s.candidate.memo.farmerKey = none → (co.Still → w' = w) →
      Search ctx co m w (.continued, m, co.revoke s.candidate.memo.farmerKey w')
  | mismatched {w'} (path : Path) : (co.Still → w' = w) →
      Search ctx co m w (.exit (.plotIdMismatch path), m, w')
  | tooLarge {w'} : m.choice ctx co w = .error .plotTooLarge → Search ctx co m w (.overflow, m, w')
  | endless {w'} : m.queried.oneDayIters? = none → Search ctx co m w (.overflow, m, w')

variable {ctx : Context} {co : Collaborators W} {m : Miner} {w w₀ : W}

theorem requireChallenge_fst (ctx : Context) (co : Collaborators W) (m : Miner) (w : W) :
    (m.requireChallenge ctx co w).1 = .continued ∨
      ∃ f, (m.requireChallenge ctx co w).1 = .failed f := by
  unfold requireChallenge
  split
  case h_1 f _ _ => exact .inr ⟨f, rfl⟩
  case h_2 => exact .inl rfl
  case h_3 =>
    dsimp only
    split
    case h_1 f _ _ => exact .inr ⟨f, rfl⟩
    case h_2 => exact .inl (by split <;> rfl)

theorem waitWithoutPos_search (hstill : co.Still → w = w₀) :
    Search ctx co m w₀ (m.waitWithoutPos w) := by
  unfold waitWithoutPos
  split
  case h_1 hnone => exact .endless hnone
  case h_2 => exact .settled rfl hstill

theorem provePos_search (s : ScoredCandidate) (farmerKey : Bytes32) (hstill : co.Still → w = w₀) :
    Search ctx co m w₀ (m.provePos co s farmerKey w) := by
  unfold provePos derive
  rcases hkey : co.localKey s.candidate.memo.localMasterKey w with ⟨f | localKey, w₁⟩
  all_goals
    have hasked : co.Still → w₁ = w₀ := fun h => by
      rw [← hstill h, ← h.localKey s.candidate.memo.localMasterKey w, hkey]
  · exact waitWithoutPos_search hasked
  dsimp only
  rcases hderived : co.plotId localKey s.candidate.memo.farmerKey s.candidate.memo.target w₁ with
    ⟨f | id, w₂⟩
  all_goals
    have hasked : co.Still → w₂ = w₀ := fun h => by
      rw [← hasked h, ← h.plotId localKey s.candidate.memo.farmerKey s.candidate.memo.target w₁,
        hderived]
  · exact waitWithoutPos_search hasked
  dsimp only
  split
  case isTrue => exact .mismatched _ hasked
  case isFalse =>
    rcases hread : co.fullProof s.candidate.path m.queried.challenge s.candidate.index w₂ with
      ⟨f | proof, w₃⟩
    all_goals
      have hasked : co.Still → w₃ = w₀ := fun h => by
        rw [← hasked h, ← h.fullProof s.candidate.path m.queried.challenge s.candidate.index w₂,
          hread]
    · exact waitWithoutPos_search hasked
    · exact .settled rfl hasked

theorem findPos_search : Search ctx co m w (m.findPos ctx co w) := by
  have hasked : co.Still →
      (co.candidates m.queried.challenge m.queried.filterBits w).2 = w := fun h => h.candidates ..
  unfold findPos
  dsimp only
  split
  case h_1 hlarge => exact .tooLarge hlarge
  case h_2 => exact waitWithoutPos_search hasked
  case h_3 s hchosen =>
    split
    case h_1 hunknown => exact .revoked s hchosen hunknown hasked
    case h_2 farmerKey _ => exact provePos_search s farmerKey hasked

end Miner

end PlotMiner.Mining
