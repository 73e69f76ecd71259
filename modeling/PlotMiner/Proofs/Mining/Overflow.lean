import PlotMiner.Mining.Rehearsal
import PlotMiner.Proofs.Consensus.Choice
import PlotMiner.Proofs.Mining.Search
import PlotMiner.Proofs.Mining.Timeout
import PlotMiner.Proofs.Mining.Transcript

/-!
# When a number leaves the range of its type

With plots up to the highest size class there are two numbers that a step of the miner can get
wrong: the iterations that a day takes, while it goes on without a proof of space, and the span of
the wait for a time proof. Both follow from the node's challenge alone, and a challenge is safe in
every state that a miner can reach exactly where both are in range (`step_ne_overflow_iff`).
-/

namespace PlotMiner

namespace Challenge

/-- A day's iterations are in range as long as the speed of the previous block is one of these. -/
theorem isSome_oneDayIters?_iff (c : Challenge) :
    c.oneDayIters?.isSome ↔
      c.prevVdfIters.toNat / max c.prevVdfDuration.toNat 1 ≤ 213503982334601 := by
  have hsize : UInt64.size = 18446744073709551616 := rfl
  unfold oneDayIters?
  generalize c.prevVdfIters.toNat / max c.prevVdfDuration.toNat 1 = perSecond
  dsimp only
  split
  case isTrue hfits => exact ⟨fun _ => by omega, fun _ => rfl⟩
  case isFalse habove => exact ⟨fun h => by simp at h, fun _ => by omega⟩

end Challenge

namespace Mining

variable {W : Type}

namespace Miner

variable {ctx : Context} {co : Collaborators W} {m : Miner} {w : W}

theorem waitWithoutPos_overflow_iff :
    (m.waitWithoutPos w).1 = .overflow ↔ m.queried.oneDayIters? = none := by
  unfold waitWithoutPos
  split <;> simp_all

end Miner

/-- The plots that answer are of size classes up to the highest one. -/
def Collaborators.PlotsKnown (co : Collaborators W) (w : W) : Prop :=
  ∀ challenge bits cs, (co.candidates challenge bits w).1 = .ok cs → ∀ c ∈ cs, c.k ≤ highestK

namespace Miner

variable {ctx : Context} {co : Collaborators W} {m : Miner} {w : W}

theorem findPos_overflow (hknown : co.PlotsKnown w) (h : (m.findPos ctx co w).1 = .overflow) :
    m.queried.oneDayIters? = none := by
  have hsearch : Search ctx co m w (m.findPos ctx co w) := findPos_search
  generalize m.findPos ctx co w = r at h hsearch
  cases hsearch with
  | endless hnone => exact hnone
  | tooLarge hlarge =>
    refine absurd hlarge (selectBest_ne_plotTooLarge _ _ ?_)
    rcases hoffered : (co.candidates m.queried.challenge m.queried.filterBits w).1 with f | cs
    · simp [candidatesOf]
    · intro c hmem
      exact UInt8.le_trans (hknown _ _ cs hoffered c hmem) (by decide)
  | settled => simp at h
  | revoked => simp at h
  | mismatched => simp at h

theorem waitVdf_overflow_iff {fuel : Nat} :
    (m.waitVdf ctx co fuel w).1 = .overflow ↔
      ctx.timings.vdfTimeout? m.queried.targetDuration = none := by
  unfold waitVdf
  split
  · simp_all
  · split <;> simp_all

/-- A step gets a number wrong only while it goes on without a proof of space or begins to wait for
a time proof, and then because of the challenge. -/
theorem step_overflow {fuel : Nat} (hknown : co.PlotsKnown w)
    (h : (m.step ctx co fuel w).1 = .overflow) :
    (m.phase = .findPos ∧ m.queried.oneDayIters? = none) ∨
      (m.phase = .waitVdf ∧ ctx.timings.vdfTimeout? m.queried.targetDuration = none) := by
  unfold step at h
  split at h
  case h_1 =>
    obtain hgoes | ⟨f, hfails⟩ := requireChallenge_fst ctx co m w
    · simp [hgoes] at h
    · simp [hfails] at h
  case h_2 hphase => exact .inl ⟨hphase, findPos_overflow hknown h⟩
  case h_3 hphase => exact .inr ⟨hphase, waitVdf_overflow_iff.1 h⟩
  case h_4 => simp at h
  case h_5 => simp at h

end Miner

namespace Plotless

def always {α : Type} (a : α) : List (PreparedAnswer α) := [⟨.ok a, 1, false, []⟩]

/-- There are no plots, and the node is ready and reports one and the same challenge for ever. -/
def site (c : Challenge) : Logged (Site Rehearsal) :=
  ⟨⟨⟨always true, always c, always true, [], [], false, []⟩, ⟨[], default, 0⟩, .empty, 0, true⟩, []⟩

def collaborators : Collaborators (Logged (Site Rehearsal)) :=
  Rehearsal.collaborators (.steady (.ok default) (.ok default))

variable (ctx : Context) (c : Challenge)

def after (n : Nat) : Miner × Logged (Site Rehearsal) :=
  (Miner.turns ctx collaborators 0 (site c) n).2

theorem history (n : Nat) :
    History ctx collaborators Eq (site c) (Miner.turns ctx collaborators 0 (site c) n).1
      (after ctx c n).1 (after ctx c n).2 :=
  .turns 0 n

theorem known_one : collaborators.PlotsKnown (after ctx c 1).2 := by
  intro challenge bits cs hanswered
  have hnone : Except.ok [] = Except.ok (ε := Failure) cs := hanswered
  cases hnone
  simp

theorem step_after_one (fuel : Nat) :
    (after ctx c 1).1.step ctx collaborators fuel (after ctx c 1).2 =
      (after ctx c 1).1.waitWithoutPos (after ctx c 1).2 := rfl

theorem after_two {iters : UInt64} (hday : c.oneDayIters? = some iters) :
    after ctx c 2 =
      ({ Miner.initial.cleared.adopt c with iters := iters, phase := .waitVdf },
        (after ctx c 1).2) := by
  have hstep := step_after_one ctx c 0
  have hqueried : (after ctx c 1).1.queried = c := rfl
  change ((after ctx c 1).1.step ctx collaborators 0 (after ctx c 1).2).2 = _
  rw [hstep, Miner.waitWithoutPos, hqueried, hday]
  rfl

theorem known_two {iters : UInt64} (hday : c.oneDayIters? = some iters) :
    collaborators.PlotsKnown (after ctx c 2).2 := by
  rw [after_two ctx c hday]
  exact known_one ctx c

end Plotless

/-- In whatever state a miner is on a challenge, a step with plots of known size classes keeps every
number in range, exactly where the challenge has a speed that a day's iterations are in range of and
a target duration that leaves a span to wait for. -/
theorem step_ne_overflow_iff (c : Challenge) :
    (∀ {W : Type} {ctx : Context} {co : Collaborators W} {aside : W → W → Prop} {w₀ w : W}
        {ts : List Turn} {m : Miner} (fuel : Nat), ctx.timings.vdfTimeoutFactor = 1.5 →
        History ctx co aside w₀ ts m w → m.queried = c → co.PlotsKnown w →
        (m.step ctx co fuel w).1 ≠ .overflow) ↔
      c.prevVdfIters.toNat / max c.prevVdfDuration.toNat 1 ≤ 213503982334601 ∧
        c.targetDuration.toNat ≤ greatestTarget := by
  rw [← c.isSome_oneDayIters?_iff, ← isSome_vdfTimeout?_iff default rfl]
  constructor
  · intro hsafe
    let ctx : Context := .new "" []
    have hday : c.oneDayIters?.isSome := by
      rw [Option.isSome_iff_ne_none]
      intro hnone
      refine hsafe 0 rfl (Plotless.history ctx c 1) rfl (Plotless.known_one ctx c) ?_
      rw [Plotless.step_after_one]
      exact Miner.waitWithoutPos_overflow_iff.2 hnone
    obtain ⟨iters, hday⟩ := Option.isSome_iff_exists.1 hday
    refine ⟨Option.isSome_iff_exists.2 ⟨iters, hday⟩, ?_⟩
    rw [Option.isSome_iff_ne_none]
    intro hnone
    have hminer := congrArg Prod.fst (Plotless.after_two ctx c hday)
    have hqueried : (Plotless.after ctx c 2).1.queried = c := by rw [hminer]; rfl
    refine hsafe 0 rfl (Plotless.history ctx c 2) hqueried (Plotless.known_two ctx c hday) ?_
    rw [hminer]
    exact Miner.waitVdf_overflow_iff.2 hnone
  · rintro ⟨hday, hspan⟩ W ctx co aside w₀ w ts m fuel hfactor - rfl hknown hoverflow
    rw [Option.isSome_iff_ne_none] at hday hspan
    rcases Miner.step_overflow hknown hoverflow with ⟨-, hnone⟩ | ⟨-, hnone⟩
    · exact hday hnone
    · have hsame : ctx.timings.vdfTimeout? = (default : Timings).vdfTimeout? := by
        funext n
        unfold Timings.vdfTimeout?
        rw [hfactor]
        rfl
      exact hspan (hsame ▸ hnone)

/-- A node that reports a block of no duration with as many iterations as 64 bits hold, and a node
that reports as long a target duration, each bring down a miner without plots. -/
theorem extreme_challenges_overflow :
    let fast := { (default : Challenge) with prevVdfIters := 18446744073709551615 }
    let slow := { (default : Challenge) with targetDuration := 18446744073709551615 }
    let ctx : Context := .new "reward-address" []
    (∃ ts m w, History ctx Plotless.collaborators Eq (Plotless.site fast) ts m w ∧
      m.queried = fast ∧ m.phase = .findPos ∧
      (m.step ctx Plotless.collaborators 1 w).1 = .overflow) ∧
    ∃ ts m w, History ctx Plotless.collaborators Eq (Plotless.site slow) ts m w ∧
      m.queried = slow ∧ m.phase = .waitVdf ∧
      (m.step ctx Plotless.collaborators 1 w).1 = .overflow := by
  intro fast slow ctx
  constructor
  · have hday : fast.oneDayIters? = none := by decide
    refine ⟨_, _, _, Plotless.history ctx fast 1, rfl, rfl, ?_⟩
    rw [Plotless.step_after_one]
    exact Miner.waitWithoutPos_overflow_iff.2 hday
  · have hday : slow.oneDayIters? = some 0 := by decide
    have hspan : (default : Timings).vdfTimeout? slow.targetDuration = none := by
      rw [← Option.not_isSome_iff_eq_none, isSome_vdfTimeout?_iff default rfl]
      decide
    have hhistory := Plotless.history ctx slow 2
    rw [Plotless.after_two ctx slow hday] at hhistory
    exact ⟨_, _, _, hhistory, rfl, rfl, Miner.waitVdf_overflow_iff.2 hspan⟩

end Mining

end PlotMiner
