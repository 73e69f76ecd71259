import Mathlib.Algebra.Order.Floor.Semifield
import Mathlib.Data.Rat.Floor
import Mathlib.Tactic.Linarith
import PlotMiner.Consensus.Difficulty

/-!
# How far the space of the network is estimated too low

The estimate is made of the difficulty per iteration, which is rounded down, then brought to the
size of a unit of it, and rounded down again. What the first rounding drops is scaled with the rest,
so that it can come to almost a whole unit; the second one drops less than one. So the estimate is
never too high, and too low by less than a unit and one (`networkSpace_near_exact`). Since both
roundings keep the order, it goes with the difficulty and against the iterations, as the exact space
does.
-/

namespace PlotMiner

section Floor

variable {x y u v : ℚ}

theorem floor_floor_mul_le (hpositive : 0 ≤ x) (hscale : 0 ≤ u) :
    (⌊(⌊x⌋₊ : ℚ) * u⌋₊ : ℚ) ≤ x * u :=
  calc (⌊(⌊x⌋₊ : ℚ) * u⌋₊ : ℚ)
      ≤ ⌊x⌋₊ * u := Nat.floor_le (mul_nonneg (Nat.cast_nonneg _) hscale)
    _ ≤ x * u := mul_le_mul_of_nonneg_right (Nat.floor_le hpositive) hscale

theorem sub_floor_floor_mul_lt (x : ℚ) (hscale : 0 ≤ u) :
    x * u - ⌊(⌊x⌋₊ : ℚ) * u⌋₊ < u + 1 := by
  have hfirst : x * u ≤ (⌊x⌋₊ + 1) * u :=
    mul_le_mul_of_nonneg_right (Nat.lt_floor_add_one x).le hscale
  have hsecond : (⌊x⌋₊ : ℚ) * u < ⌊(⌊x⌋₊ : ℚ) * u⌋₊ + 1 := Nat.lt_floor_add_one _
  linarith

theorem floor_floor_mul_mono (hhigher : x ≤ y) (hpositive : 0 ≤ u) (hlarger : u ≤ v) :
    ⌊(⌊x⌋₊ : ℚ) * u⌋₊ ≤ ⌊(⌊y⌋₊ : ℚ) * v⌋₊ := by
  have hwhole : (⌊x⌋₊ : ℚ) ≤ ⌊y⌋₊ := Nat.cast_le.2 (Nat.floor_mono hhigher)
  exact Nat.floor_mono (mul_le_mul hwhole hlarger hpositive (Nat.cast_nonneg _))

end Floor

section

variable {difficulty difficulty' iters iters' : UInt64} {factorBits factorBits' : UInt8}

def difficultyRate (difficulty iters : UInt64) : ℚ := difficulty.toNat / iters.toNat

/-- The space that a difficulty of one per iteration stands for. -/
def spaceUnit (factorBits : UInt8) : ℚ := 2 ^ factorBits.toNat * 762 / 1000

theorem difficultyRate_nonneg (difficulty iters : UInt64) : 0 ≤ difficultyRate difficulty iters :=
  div_nonneg (Nat.cast_nonneg _) (Nat.cast_nonneg _)

theorem spaceUnit_nonneg (factorBits : UInt8) : 0 ≤ spaceUnit factorBits := by
  unfold spaceUnit
  positivity

theorem difficultyRate_mul_spaceUnit (difficulty iters : UInt64) (factorBits : UInt8) :
    difficultyRate difficulty iters * spaceUnit factorBits =
      difficulty.toNat * 2 ^ factorBits.toNat * 762 / (1000 * iters.toNat) := by
  unfold difficultyRate spaceUnit
  ring

/-- Without iterations the rate is zero, as a quotient by zero is, and so is the estimate. -/
theorem networkSpace_eq_floor (difficulty iters : UInt64) (factorBits : UInt8) :
    networkSpace difficulty iters factorBits =
      ⌊(⌊difficultyRate difficulty iters⌋₊ : ℚ) * spaceUnit factorBits⌋₊ := by
  have hquotient : networkSpace difficulty iters factorBits =
      difficulty.toNat / iters.toNat * 2 ^ factorBits.toNat * 762 / 1000 := by
    unfold networkSpace
    split
    case isTrue hnone => simp [hnone]
    case isFalse hsome => rw [Nat.shiftLeft_eq]
  have hrate : ⌊difficultyRate difficulty iters⌋₊ = difficulty.toNat / iters.toNat :=
    Nat.floor_div_eq_div _ _
  rw [hquotient, hrate, ← Nat.floor_div_eq_div (K := ℚ), spaceUnit]
  push_cast
  ring_nf

theorem difficultyRate_mono (hharder : difficulty ≤ difficulty') (iters : UInt64) :
    difficultyRate difficulty iters ≤ difficultyRate difficulty' iters :=
  div_le_div_of_nonneg_right (Nat.cast_le.2 (UInt64.le_iff_toNat_le.1 hharder)) (Nat.cast_nonneg _)

theorem difficultyRate_anti (difficulty : UInt64) (hpositive : 1 ≤ iters)
    (hlonger : iters ≤ iters') :
    difficultyRate difficulty iters' ≤ difficultyRate difficulty iters := by
  have hpositive : (0 : ℚ) < iters.toNat := Nat.cast_pos.2 (UInt64.le_iff_toNat_le.1 hpositive)
  have hlonger : (iters.toNat : ℚ) ≤ iters'.toNat :=
    Nat.cast_le.2 (UInt64.le_iff_toNat_le.1 hlonger)
  exact div_le_div_of_nonneg_left (Nat.cast_nonneg _) hpositive hlonger

theorem spaceUnit_mono (hmore : factorBits ≤ factorBits') :
    spaceUnit factorBits ≤ spaceUnit factorBits' := by
  have hmore := UInt8.le_iff_toNat_le.1 hmore
  unfold spaceUnit
  gcongr
  norm_num

/-- A quotient; there is none by zero. -/
def quotient? (n d : Nat) : Option Nat := if d = 0 then none else some (n / d)

/-- The estimate made of quotients that there may be none of. -/
def networkSpace? (difficulty iters : UInt64) (factorBits : UInt8) : Option Nat :=
  if iters = 0 then some 0
  else do
    let rate ← quotient? difficulty.toNat iters.toNat
    quotient? (rate <<< factorBits.toNat * 762) 1000

theorem networkSpace?_eq (difficulty iters : UInt64) (factorBits : UInt8) :
    networkSpace? difficulty iters factorBits =
      some (networkSpace difficulty iters factorBits) := by
  unfold networkSpace? networkSpace
  split
  case isTrue hnone => rfl
  case isFalse hsome =>
    have hdivisor : iters.toNat ≠ 0 := fun hzero => hsome (UInt64.toNat_inj.1 hzero)
    simp [quotient?, hdivisor]

end

/-- The estimate is never above the exact space, and below it by less than the space of a difficulty
of one per iteration and one more. It never decreases with the difficulty or the bits that scale it,
and never increases with the iterations. Without iterations it is zero, which no quotient is needed
for. -/
theorem networkSpace_near_exact :
    (∀ (difficulty iters : UInt64) (factorBits : UInt8), 1 ≤ iters →
      (networkSpace difficulty iters factorBits : ℚ) ≤
          difficulty.toNat * 2 ^ factorBits.toNat * 762 / (1000 * iters.toNat) ∧
        (difficulty.toNat * 2 ^ factorBits.toNat * 762 / (1000 * iters.toNat) : ℚ) -
          networkSpace difficulty iters factorBits < 2 ^ factorBits.toNat * 762 / 1000 + 1) ∧
    (∀ (difficulty difficulty' iters : UInt64) (factorBits factorBits' : UInt8),
      difficulty ≤ difficulty' → factorBits ≤ factorBits' →
      networkSpace difficulty iters factorBits ≤ networkSpace difficulty' iters factorBits') ∧
    (∀ (difficulty iters iters' : UInt64) (factorBits : UInt8), 1 ≤ iters → iters ≤ iters' →
      networkSpace difficulty iters' factorBits ≤ networkSpace difficulty iters factorBits) ∧
    (∀ (difficulty iters : UInt64) (factorBits : UInt8),
      networkSpace? difficulty iters factorBits =
        some (networkSpace difficulty iters factorBits)) ∧
    ∀ (difficulty : UInt64) (factorBits : UInt8), networkSpace difficulty 0 factorBits = 0 := by
  refine ⟨?_, ?_, ?_, networkSpace?_eq, ?_⟩
  · intro difficulty iters factorBits _
    rw [← difficultyRate_mul_spaceUnit, networkSpace_eq_floor]
    exact ⟨floor_floor_mul_le (difficultyRate_nonneg _ _) (spaceUnit_nonneg _),
      sub_floor_floor_mul_lt _ (spaceUnit_nonneg _)⟩
  · intro difficulty difficulty' iters factorBits factorBits' hharder hmore
    rw [networkSpace_eq_floor, networkSpace_eq_floor]
    exact floor_floor_mul_mono (difficultyRate_mono hharder iters) (spaceUnit_nonneg _)
      (spaceUnit_mono hmore)
  · intro difficulty iters iters' factorBits hpositive hlonger
    rw [networkSpace_eq_floor, networkSpace_eq_floor]
    exact floor_floor_mul_mono (difficultyRate_anti difficulty hpositive hlonger)
      (spaceUnit_nonneg _) le_rfl
  · intro difficulty factorBits
    rfl

/-- A difficulty just short of one per iteration is rounded down to none, and with one iteration
less to one. -/
theorem networkSpace_near_exact_short :
    (1 : UInt64) ≤ 999 ∧ (999 : UInt64) ≤ 1000 ∧ (998 : UInt64) ≤ 999 ∧ (254 : UInt8) ≤ 255 ∧
    networkSpace 999 1000 255 = 0 ∧ networkSpace 999 999 255 = 2 ^ 255 * 762 / 1000 ∧
    (999 * 2 ^ 255 * 762 / (1000 * 1000) : ℚ) - networkSpace 999 1000 255 <
      2 ^ 255 * 762 / 1000 + 1 ∧
    (networkSpace 999 999 255 : ℚ) ≤ 999 * 2 ^ 255 * 762 / (1000 * 999) ∧
    networkSpace 998 999 254 ≤ networkSpace 999 999 255 ∧
    networkSpace 999 1000 255 ≤ networkSpace 999 999 255 := by
  obtain ⟨hnear, hmono, hanti, -⟩ := networkSpace_near_exact
  refine ⟨by decide, by decide, by decide, by decide, by decide, by decide, ?_, ?_, ?_, ?_⟩
  · simpa using (hnear 999 1000 255 (by decide)).2
  · simpa using (hnear 999 999 255 (by decide)).1
  · exact hmono 998 999 999 254 255 (by decide) (by decide)
  · exact hanti 999 999 1000 255 (by decide) (by decide)

end PlotMiner
