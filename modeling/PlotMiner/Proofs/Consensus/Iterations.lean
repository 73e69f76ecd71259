import Mathlib.Algebra.Order.Floor.Semifield
import Mathlib.Data.Rat.Floor
import Mathlib.Tactic.NormNum
import PlotMiner.Consensus.Selection
import PlotMiner.Proofs.Bytes

/-!
# How long a proof of space waits

The iterations that a proof of space has to wait for are the base and the rounded-down share of the
difficulty that its quality leaves, with at least one iteration and at most as many as 64 bits hold.
Dividing first by the power of two of the filter and then by the size of the plot rounds no more
than a single division does (`iterations_exact`), and so a better proof of a larger plot never waits
longer (`iterations_mono`).
-/

namespace PlotMiner

theorem toNat_lower32 (mixed : Bytes32) : (lower32 mixed).toNat = mixed.toNat % 2 ^ 32 := by
  simp [lower32, UInt32.size]

theorem toNat_lower32_eq_last (mixed : Bytes32) :
    (lower32 mixed).toNat = natOfBytes (mixed.toList.drop 28) := by
  have hlength : (mixed.toList.drop 28).length = 4 := by simp [mixed.length_eq]
  have hsmall := natOfBytes_lt (mixed.toList.drop 28)
  have hwhole := natOfBytes_append (mixed.toList.take 28) (mixed.toList.drop 28)
  rw [List.take_append_drop, hlength] at hwhole
  rw [hlength] at hsmall
  rw [toNat_lower32, SizedBytes.toNat, hwhole]
  omega

def plotSize (k : Nat) : Nat := (2 * k + 1) * 2 ^ (k - 1)

theorem plotSize_pos (k : Nat) : 0 < plotSize k := by
  unfold plotSize
  positivity

theorem plotSize_mono {k l : Nat} (h : k ≤ l) : plotSize k ≤ plotSize l := by
  unfold plotSize
  gcongr
  decide

theorem expectedPlotSize?_eq {k : UInt8} (h : k ≤ 58) :
    expectedPlotSize? k = some (UInt64.ofNat (plotSize k.toNat)) ∧
      (UInt64.ofNat (plotSize k.toNat)).toNat = plotSize k.toNat := by
  have hsmall : k.toNat ≤ 58 := UInt8.le_iff_toNat_le.1 h
  have hfits : plotSize k.toNat < UInt64.size :=
    (plotSize_mono hsmall).trans_lt (by decide)
  have hshifted : (2 * k.toNat + 1) <<< (k.toNat - 1) = plotSize k.toNat := Nat.shiftLeft_eq ..
  refine ⟨?_, UInt64.toNat_ofNat_of_lt' hfits⟩
  simp only [expectedPlotSize?, hshifted, if_pos hfits]

namespace Target

/-- The iterations before they are brought into the range of 64 bits, for a mixed quality whose
lowest bits are `low`. -/
def wait (t : Target) (low k : Nat) : Nat :=
  t.baseIters.toNat +
    t.difficulty.toNat * 2 ^ t.factorBits.toNat * low /
      (2 ^ t.filterBits.toNat * plotSize k * 2 ^ 32)

/-- The two divisions round down no more than one does. -/
theorem iterations?_eq (t : Target) (mixed : Bytes32) {k : UInt8} (h : k ≤ 58) :
    ∃ n, t.iterations? mixed k = some n ∧
      n.toNat = max 1 (min (2 ^ 64 - 1) (t.wait (lower32 mixed).toNat k.toNat)) := by
  obtain ⟨hsize, hvalue⟩ := expectedPlotSize?_eq h
  -- dividing twice rounds down as often as dividing by the product: once
  have hexact_wait :
      (t.difficulty.toNat <<< t.factorBits.toNat * (lower32 mixed).toNat) >>> t.filterBits.toNat /
          (plotSize k.toNat * UInt32.size) + t.baseIters.toNat =
        t.wait (lower32 mixed).toNat k.toNat := by
    rw [wait, Nat.shiftLeft_eq, Nat.shiftRight_eq_div_pow, Nat.div_div_eq_div_mul, Nat.add_comm,
      Nat.mul_assoc (2 ^ t.filterBits.toNat)]
    rfl
  simp only [iterations?, hsize, Option.bind_eq_bind, Option.bind_some, hvalue, hexact_wait]
  refine ⟨_, rfl, UInt64.toNat_ofNat_of_lt' ?_⟩
  simp only [UInt64.size]
  omega

theorem wait_eq_floor (t : Target) (low k : Nat) :
    t.wait low k = t.baseIters.toNat +
      ⌊(t.difficulty.toNat * 2 ^ t.factorBits.toNat * low : ℚ) /
        (2 ^ t.filterBits.toNat * ((2 * k + 1) * 2 ^ (k - 1)) * 2 ^ 32)⌋₊ := by
  rw [wait, ← Nat.floor_div_eq_div (K := ℚ), plotSize]
  push_cast
  rfl

/-- A target that asks for no more iterations than another one. -/
structure Milder (t t' : Target) : Prop where
  difficulty : t.difficulty ≤ t'.difficulty
  filterBits : t'.filterBits ≤ t.filterBits
  factorBits : t.factorBits ≤ t'.factorBits
  baseIters : t.baseIters ≤ t'.baseIters

theorem Milder.refl (t : Target) : t.Milder t :=
  ⟨UInt64.le_refl _, UInt8.le_refl _, UInt8.le_refl _, UInt64.le_refl _⟩

theorem wait_mono {t t' : Target} (h : t.Milder t') {low low' k k' : Nat} (hbetter : low ≤ low')
    (hlarger : k' ≤ k) : t.wait low k ≤ t'.wait low' k' := by
  have hdifficulty := UInt64.le_iff_toNat_le.1 h.difficulty
  have hfilterBits := UInt8.le_iff_toNat_le.1 h.filterBits
  have hfactorBits := UInt8.le_iff_toNat_le.1 h.factorBits
  have hbaseIters := UInt64.le_iff_toNat_le.1 h.baseIters
  have hshare : t.difficulty.toNat * 2 ^ t.factorBits.toNat * low ≤
      t'.difficulty.toNat * 2 ^ t'.factorBits.toNat * low' := by
    gcongr
    decide
  have hdivisor : 2 ^ t'.filterBits.toNat * plotSize k' * 2 ^ 32 ≤
      2 ^ t.filterBits.toNat * plotSize k * 2 ^ 32 := by
    gcongr
    · decide
    · exact plotSize_mono hlarger
  have hpositive : 2 ^ t'.filterBits.toNat * plotSize k' * 2 ^ 32 ≠ 0 := by
    have := plotSize_pos k'
    positivity
  exact Nat.add_le_add hbaseIters (Nat.div_le_div hshare hdivisor hpositive)

theorem iterations?_mono {t t' : Target} (h : t.Milder t') {mixed mixed' : Bytes32} {k k' : UInt8}
    (hbetter : lower32 mixed ≤ lower32 mixed') (hlarger : k' ≤ k) (hsmall : k ≤ 58) :
    ∃ n n', t.iterations? mixed k = some n ∧ t'.iterations? mixed' k' = some n' ∧ n ≤ n' := by
  obtain ⟨n, hvalue, hexact⟩ := t.iterations?_eq mixed hsmall
  obtain ⟨n', hvalue', hexact'⟩ := t'.iterations?_eq mixed' (UInt8.le_trans hlarger hsmall)
  have hless := wait_mono h (UInt32.le_iff_toNat_le.1 hbetter) (UInt8.le_iff_toNat_le.1 hlarger)
  refine ⟨n, n', hvalue, hvalue', UInt64.le_iff_toNat_le.2 ?_⟩
  omega

end Target

/-- The iterations of a proof of space are exact: the rounded-down share of the difficulty, computed
in one division of rational numbers, on top of the base, and brought into range at the end. The
lowest 32 bits of the mixed quality, which it is in proportion to, are its last four bytes. -/
theorem iterations_exact (t : Target) (mixed : Bytes32) {k : UInt8} (h : k ≤ 58) :
    natOfBytes (mixed.toList.drop 28) = mixed.toNat % 2 ^ 32 ∧
    ∃ n, t.iterations? mixed k = some n ∧
      n.toNat = max 1 (min (2 ^ 64 - 1) (t.baseIters.toNat +
        ⌊(t.difficulty.toNat * 2 ^ t.factorBits.toNat * (mixed.toNat % 2 ^ 32 : Nat) : ℚ) /
          (2 ^ t.filterBits.toNat * ((2 * k.toNat + 1) * 2 ^ (k.toNat - 1)) * 2 ^ 32)⌋₊)) := by
  refine ⟨by rw [← toNat_lower32_eq_last, toNat_lower32], ?_⟩
  obtain ⟨n, hvalue, hbounded⟩ := t.iterations?_eq mixed h
  rw [toNat_lower32, t.wait_eq_floor] at hbounded
  exact ⟨n, hvalue, hbounded⟩

/-- A plot of the largest size class that 64 bits allow, against the highest difficulty. -/
theorem iterations_exact_largest :
    (58 : UInt8) ≤ 58 ∧
    ∃ n, Target.iterations? ⟨0xFFFFFFFFFFFFFFFF, 9, 35, 77⟩ (SizedBytes.ofNat 32 0xFEDCBA9876) 58 =
        some n ∧
      n.toNat = max 1 (min (2 ^ 64 - 1) (77 +
        ⌊(0xFFFFFFFFFFFFFFFF * 2 ^ 35 * 0xDCBA9876 : ℚ) /
          (2 ^ 9 * ((2 * 58 + 1) * 2 ^ 57) * 2 ^ 32)⌋₊)) := by
  obtain ⟨-, n, hvalue, hexact⟩ := iterations_exact ⟨0xFFFFFFFFFFFFFFFF, 9, 35, 77⟩
    (SizedBytes.ofNat 32 0xFEDCBA9876) (k := 58) (by decide)
  have hlow : (SizedBytes.ofNat 32 0xFEDCBA9876).toNat % 2 ^ 32 = 0xDCBA9876 := by decide
  rw [hlow] at hexact
  refine ⟨by decide, n, hvalue, ?_⟩
  simpa using hexact

theorem Candidate.score?_eq {c : Candidate} {challenge : Bytes32} {t : Target} {n : UInt64}
    (h : t.iterations? (mixQuality c.quality.toList challenge) c.k = some n) :
    c.score? challenge t = some ⟨c, mixQuality c.quality.toList challenge, n⟩ := by
  rw [score?, h]
  rfl

/-- Iterations never decrease with the difficulty, the bits that scale it, the base or the lowest
bits of the mixed quality, and never increase with the bits of the filter or the size class. In one
round a proof with lower lowest bits, or of a larger plot, never waits longer. -/
theorem iterations_mono :
    (∀ (t t' : Target) (mixed mixed' : Bytes32) (k k' : UInt8), t.Milder t' →
      lower32 mixed ≤ lower32 mixed' → k' ≤ k → k ≤ 58 →
      ∃ n n', t.iterations? mixed k = some n ∧ t'.iterations? mixed' k' = some n' ∧ n ≤ n') ∧
    (∀ (challenge : Bytes32) (t : Target) (c c' : Candidate),
      lower32 (mixQuality c.quality.toList challenge) ≤
        lower32 (mixQuality c'.quality.toList challenge) → c'.k ≤ c.k → c.k ≤ 58 →
      ∃ s s', c.score? challenge t = some s ∧ c'.score? challenge t = some s' ∧
        s.iters ≤ s'.iters) := by
  constructor
  · intro t t' mixed mixed' k k' hmilder hbetter hlarger hsmall
    exact Target.iterations?_mono hmilder hbetter hlarger hsmall
  · intro challenge t c c' hbetter hlarger hsmall
    obtain ⟨n, n', hvalue, hvalue', hless⟩ :=
      Target.iterations?_mono (.refl t) hbetter hlarger hsmall
    exact ⟨_, _, Candidate.score?_eq hvalue, Candidate.score?_eq hvalue', hless⟩

namespace Sample

def mild : Target := ⟨1000, 9, 35, 77⟩

def harsh : Target := ⟨2000, 3, 36, 78⟩

def answer (k : UInt8) : Candidate :=
  ⟨⟨"/plots/a.plot"⟩, default, 0, k, ⟨[7]⟩, default⟩

end Sample

/-- Everything is worse in one pair, and only the plot is smaller in the other. -/
theorem iterations_mono_pairs :
    (Sample.mild.Milder Sample.harsh ∧
      lower32 (SizedBytes.ofNat 32 0x100000005) ≤ lower32 (SizedBytes.ofNat 32 6) ∧
      (32 : UInt8) ≤ 58 ∧
      ∃ n n', Sample.mild.iterations? (SizedBytes.ofNat 32 0x100000005) 58 = some n ∧
        Sample.harsh.iterations? (SizedBytes.ofNat 32 6) 32 = some n' ∧ n ≤ n') ∧
    ((Sample.answer 32).k ≤ (Sample.answer 33).k ∧ (Sample.answer 33).k ≤ 58 ∧
      ∃ s s', (Sample.answer 33).score? default Sample.mild = some s ∧
        (Sample.answer 32).score? default Sample.mild = some s' ∧ s.iters ≤ s'.iters) := by
  have hmilder : Sample.mild.Milder Sample.harsh := by constructor <;> decide
  have hbetter : lower32 (SizedBytes.ofNat 32 0x100000005) ≤ lower32 (SizedBytes.ofNat 32 6) := by
    decide
  obtain ⟨hapart, htogether⟩ := iterations_mono
  refine ⟨⟨hmilder, hbetter, by decide, ?_⟩, by decide, by decide, ?_⟩
  · exact hapart _ _ _ _ _ _ hmilder hbetter (by decide) (by decide)
  · exact htogether _ _ (Sample.answer 33) (Sample.answer 32) (UInt32.le_refl _) (by decide)
      (by decide)

end PlotMiner
