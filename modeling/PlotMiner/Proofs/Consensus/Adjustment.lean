import Mathlib.Data.UInt
import PlotMiner.Consensus.Difficulty

/-!
# How far the difficulty moves

An adjustment bounds an increase from above only and anything else from below only. Where the
previous difficulty itself lies between the two bounds, that comes to the same as keeping the
suggested difficulty between both of them (`adjust?_clamps`). So after a faster block, or with a
higher minimum of the network, the difficulty is never lower. The bounds and the scaled target are
taken as they come out in floating point.
-/

namespace PlotMiner.AdjustmentRule

variable {r : AdjustmentRule} {previous duration : UInt64}

def proposal (r : AdjustmentRule) (previous duration : Nat) : Nat :=
  max (min (2 ^ 64 - 1) (max (previous / duration) 1 * r.scaledTarget.toNat)) r.networkMinimum.toNat

/-- A number kept between the bounds on what may follow `previous`, and above zero. -/
def clamp (r : AdjustmentRule) (previous : UInt64) (n : Nat) : Nat :=
  max 1 (min (r.upperBound previous).toNat (max (r.lowerBound previous).toNat n))

def withMinimum (r : AdjustmentRule) (minimum : UInt64) : AdjustmentRule :=
  { r with networkMinimum := minimum }

theorem toNat_suggested (r : AdjustmentRule) (previous duration : UInt64) :
    (r.suggested previous duration).toNat = r.proposal previous.toNat duration.toNat := by
  have hfits (n : Nat) : min (UInt64.size - 1) n < UInt64.size := by
    have : UInt64.size = 2 ^ 64 := rfl
    omega
  rw [suggested, UInt64.toNat_max, UInt64.toNat_ofNat_of_lt' (hfits _), UInt64.toNat_max,
    UInt64.toNat_div]
  rfl

/-- The previous difficulty is one of those that may follow it. -/
def Steady (r : AdjustmentRule) (previous : UInt64) : Prop :=
  r.lowerBound previous ≤ previous ∧ previous ≤ r.upperBound previous

theorem clamp_mono (r : AdjustmentRule) (previous : UInt64) {n n' : Nat} (h : n ≤ n') :
    r.clamp previous n ≤ r.clamp previous n' := by
  unfold clamp
  omega

theorem Steady.clamp_bounds (h : r.Steady previous) (n : Nat) :
    max 1 (r.lowerBound previous).toNat ≤ r.clamp previous n ∧
      r.clamp previous n ≤ max 1 (r.upperBound previous).toNat := by
  have hlow := UInt64.le_iff_toNat_le.1 h.1
  have hhigh := UInt64.le_iff_toNat_le.1 h.2
  unfold clamp
  omega

theorem clamp_of_upperBound_le {n : Nat} (h : (r.upperBound previous).toNat ≤ n) :
    r.clamp previous n = max 1 (r.upperBound previous).toNat := by
  unfold clamp
  omega

/-- The bound on the side that the suggestion lies on is the only one that it can be beyond. -/
theorem Steady.adjust?_eq (h : r.Steady previous) (htook : duration ≠ 0) :
    ∃ d, r.adjust? previous duration = some d ∧
      d.toNat = r.clamp previous (r.proposal previous.toNat duration.toNat) := by
  have hlow := UInt64.le_iff_toNat_le.1 h.1
  have hhigh := UInt64.le_iff_toNat_le.1 h.2
  have hone : (1 : UInt64).toNat = 1 := rfl
  rw [adjust?, if_neg htook, ← toNat_suggested]
  refine ⟨_, rfl, ?_⟩
  unfold clamp
  split
  case isTrue hmore =>
    have habove := UInt64.lt_iff_toNat_lt.1 hmore
    rw [UInt64.toNat_max, UInt64.toNat_min, hone]
    omega
  case isFalse hless =>
    have hbelow := UInt64.le_iff_toNat_le.1 (UInt64.not_lt.1 hless)
    rw [UInt64.toNat_max, UInt64.toNat_max, hone]
    omega

theorem proposal_faster (r : AdjustmentRule) (previous : Nat) {faster slower : Nat}
    (htook : faster ≠ 0) (h : faster ≤ slower) :
    r.proposal previous slower ≤ r.proposal previous faster := by
  have hrate : previous / slower ≤ previous / faster :=
    Nat.div_le_div_left h (Nat.pos_of_ne_zero htook)
  have hproduct : max (previous / slower) 1 * r.scaledTarget.toNat ≤
      max (previous / faster) 1 * r.scaledTarget.toNat :=
    Nat.mul_le_mul_right _ (by omega)
  unfold proposal
  omega

theorem proposal_withMinimum (r : AdjustmentRule) (previous duration : Nat) {minimum : UInt64}
    (h : r.networkMinimum ≤ minimum) :
    r.proposal previous duration ≤ (r.withMinimum minimum).proposal previous duration := by
  -- the rate and the target do not depend on the minimum
  unfold proposal
  exact max_le_max_left _ (UInt64.le_iff_toNat_le.1 h)

/-- Where the previous difficulty lies between the bounds, the difficulty after a block that took
any time at all is the suggested one kept between them, and at least one. It is never lower after a
faster block, nor with a higher minimum of the network. -/
theorem adjust?_clamps (r : AdjustmentRule) (previous : UInt64) (h : r.Steady previous) :
    (∀ duration, duration ≠ 0 → ∃ d, r.adjust? previous duration = some d ∧
      d.toNat = r.clamp previous (r.proposal previous.toNat duration.toNat) ∧
      max 1 (r.lowerBound previous).toNat ≤ d.toNat ∧
      d.toNat ≤ max 1 (r.upperBound previous).toNat) ∧
    (∀ faster slower, faster ≠ 0 → faster ≤ slower →
      ∃ d d', r.adjust? previous slower = some d ∧ r.adjust? previous faster = some d' ∧ d ≤ d') ∧
    (∀ duration minimum, duration ≠ 0 → r.networkMinimum ≤ minimum →
      ∃ d d', r.adjust? previous duration = some d ∧
        (r.withMinimum minimum).adjust? previous duration = some d' ∧ d ≤ d') := by
  refine ⟨?_, ?_, ?_⟩
  · intro duration htook
    obtain ⟨d, hvalue, hexact⟩ := h.adjust?_eq htook
    refine ⟨d, hvalue, hexact, ?_⟩
    rw [hexact]
    exact h.clamp_bounds _
  · intro faster slower htook hless
    have hless' := UInt64.le_iff_toNat_le.1 hless
    have htook' : faster.toNat ≠ 0 := fun hzero => htook (UInt64.toNat_inj.1 hzero)
    have htook_slower : slower ≠ 0 := by
      rintro rfl
      exact htook' (Nat.le_zero.1 hless')
    obtain ⟨d, hvalue, hexact⟩ := h.adjust?_eq htook_slower
    obtain ⟨d', hvalue', hexact'⟩ := h.adjust?_eq htook
    refine ⟨d, d', hvalue, hvalue', UInt64.le_iff_toNat_le.2 ?_⟩
    rw [hexact, hexact']
    exact r.clamp_mono previous (r.proposal_faster previous.toNat htook' hless')
  · intro duration minimum htook hhigher
    have hsteady : (r.withMinimum minimum).Steady previous := h
    obtain ⟨d, hvalue, hexact⟩ := h.adjust?_eq htook
    obtain ⟨d', hvalue', hexact'⟩ := hsteady.adjust?_eq htook
    refine ⟨d, d', hvalue, hvalue', UInt64.le_iff_toNat_le.2 ?_⟩
    rw [hexact, hexact']
    exact r.clamp_mono previous (r.proposal_withMinimum previous.toNat duration.toNat hhigher)

/-- Under a rule that lets the difficulty change threefold, a minimum of the network beyond that
takes it as high as it may go; with a lower minimum it is not higher, and after a faster block not
lower. -/
theorem adjust?_clamps_threefold :
    let r : AdjustmentRule := ⟨180, 1.0, 0, 3.0, 1⟩
    r.Steady 360000 ∧ r.networkMinimum ≤ 2000000 ∧
      (r.withMinimum 2000000).adjust? 360000 360 = some 1080000 ∧
      (∃ d d', r.adjust? 360000 360 = some d ∧
        (r.withMinimum 2000000).adjust? 360000 360 = some d' ∧ d ≤ d') ∧
      ∃ d d', r.adjust? 360000 360 = some d ∧ r.adjust? 360000 1 = some d' ∧ d ≤ d' := by
  intro r
  have hsteady : r.Steady 360000 := ⟨by decide +kernel, by decide +kernel⟩
  have hhigher : r.networkMinimum ≤ 2000000 := by decide
  have htop : (r.upperBound 360000).toNat = 1080000 := by decide +kernel
  have hbeyond : 2000000 ≤ (r.withMinimum 2000000).proposal 360000 360 := le_max_right _ _
  obtain ⟨-, hfaster, hricher⟩ := adjust?_clamps r 360000 hsteady
  obtain ⟨hclamped, -, -⟩ := adjust?_clamps (r.withMinimum 2000000) 360000 hsteady
  obtain ⟨d, hvalue, hexact, -⟩ := hclamped 360 (by decide)
  have hcapped : d.toNat = max 1 (r.upperBound 360000).toNat := by
    rw [hexact]
    exact clamp_of_upperBound_le (htop ▸ Nat.le_trans (by decide) hbeyond)
  have hd_eq : d = 1080000 := UInt64.toNat_inj.1 (by rw [hcapped, htop]; rfl)
  exact ⟨hsteady, hhigher, hd_eq ▸ hvalue, hricher 360 2000000 (by decide) hhigher,
    hfaster 1 360 (by decide) (by decide)⟩

end PlotMiner.AdjustmentRule
