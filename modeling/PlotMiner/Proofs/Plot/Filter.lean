import PlotMiner.Plot.Filter
import PlotMiner.Proofs.Bytes

/-!
# Which plots take part in a round

The leading bits of a byte string are zero exactly if the number that it stands for is below the
power of two that is left when they are taken away. So a plot takes part in a round exactly if the
hash of its id and the challenge, as a number, is below that bound (`passesFilter_iff_below`); the
look-ups in the hash never go beyond its end, and with fewer bits no plot drops out.
-/

namespace PlotMiner

variable {bits : Nat} {bytes : List UInt8}

theorem leadingZeroBits_zero (bytes : List UInt8) : leadingZeroBits 0 bytes := by
  cases bytes <;> simp [leadingZeroBits]

theorem leadingZeroBits_cons_of_lt (b : UInt8) (bytes : List UInt8) (hsome_bits : bits ≠ 0)
    (hfew : bits < 8) : leadingZeroBits bits (b :: bytes) ↔ b.toNat < 2 ^ (8 - bits) := by
  rw [leadingZeroBits, if_neg hsome_bits, if_pos hfew, decide_eq_true_iff,
    Nat.shiftRight_eq_div_pow, Nat.div_eq_zero_iff_lt (Nat.two_pow_pos _)]

theorem leadingZeroBits_cons_of_le (b : UInt8) (bytes : List UInt8) (hmany : 8 ≤ bits) :
    leadingZeroBits bits (b :: bytes) ↔ b = 0 ∧ leadingZeroBits (bits - 8) bytes := by
  rw [leadingZeroBits, if_neg (by omega), if_neg (by omega)]
  simp

theorem leadingZeroBits_iff (hinside : bits ≤ 8 * bytes.length) :
    leadingZeroBits bits bytes = true ↔ natOfBytes bytes < 2 ^ (8 * bytes.length - bits) := by
  have hpower (n : Nat) : 256 ^ n = 2 ^ (8 * n) := (Nat.pow_mul 2 8 n).symm
  induction bytes generalizing bits with
  | nil => simp [leadingZeroBits, natOfBytes]
  | cons b rest ih =>
    rw [List.length_cons] at hinside ⊢
    by_cases hnothing : bits = 0
    · have hbound := natOfBytes_lt (b :: rest)
      rw [hpower, List.length_cons] at hbound
      subst hnothing
      simpa [leadingZeroBits_zero] using hbound
    by_cases hfew : bits < 8
    · have hsplit : 2 ^ (8 * (rest.length + 1) - bits) = 2 ^ (8 - bits) * 256 ^ rest.length := by
        rw [hpower, ← Nat.pow_add]
        congr 1
        omega
      rw [leadingZeroBits_cons_of_lt b rest hnothing hfew, hsplit, natOfBytes_cons_lt_mul_iff]
    · have hleft : 8 * (rest.length + 1) - bits = 8 * rest.length - (bits - 8) := by omega
      have hfits : 2 ^ (8 * rest.length - (bits - 8)) ≤ 256 ^ rest.length := by
        rw [hpower]
        exact Nat.pow_le_pow_right (by decide) (Nat.sub_le _ _)
      have hlater : leadingZeroBits (bits - 8) rest = true ↔
          natOfBytes rest < 2 ^ (8 * rest.length - (bits - 8)) := ih (by omega)
      rw [leadingZeroBits_cons_of_le b rest (by omega), hlater, hleft, natOfBytes_cons_lt_iff hfits]

theorem leadingZeroBits?_cons_of_lt (b : UInt8) (bytes : List UInt8) (hfew : bits < 8) :
    leadingZeroBits? bits (b :: bytes) = some (leadingZeroBits bits (b :: bytes)) := by
  have hwhole : bits / 8 = 0 := by omega
  have hleft : bits % 8 = bits := by omega
  by_cases hnothing : bits = 0
  · simp [leadingZeroBits?, hnothing, leadingZeroBits]
  · simp [leadingZeroBits?, hwhole, hleft, hnothing, hfew, leadingZeroBits]

theorem leadingZeroBits?_zero_cons (bytes : List UInt8) (hmany : 8 ≤ bits) :
    leadingZeroBits? bits (0 :: bytes) = leadingZeroBits? (bits - 8) bytes := by
  have hwhole : bits / 8 = (bits - 8) / 8 + 1 := by omega
  have hleft : bits % 8 = (bits - 8) % 8 := by omega
  simp [leadingZeroBits?, hwhole, hleft]

theorem leadingZeroBits?_cons_of_ne {b : UInt8} (bytes : List UInt8) (hmany : 8 ≤ bits)
    (hinside : bits / 8 ≤ bytes.length + 1) (hother : b ≠ 0) :
    leadingZeroBits? bits (b :: bytes) = some false := by
  have hwhole : bits / 8 = (bits / 8 - 1) + 1 := by omega
  rw [leadingZeroBits?]
  simp only [List.length_cons]
  rw [if_neg (by omega), hwhole, List.take_succ_cons, List.any_cons, if_pos (by simp [hother])]

/-- Inside a byte string every look-up succeeds, and the outcome is that of going through the bytes
one by one. -/
theorem leadingZeroBits?_eq (hinside : bits ≤ 8 * bytes.length) :
    leadingZeroBits? bits bytes = some (leadingZeroBits bits bytes) := by
  induction bytes generalizing bits with
  | nil =>
    obtain rfl : bits = 0 := by simpa using hinside
    rfl
  | cons b rest ih =>
    rw [List.length_cons] at hinside
    by_cases hfew : bits < 8
    · exact leadingZeroBits?_cons_of_lt b rest hfew
    have hmany : 8 ≤ bits := by omega
    have hnext := leadingZeroBits_cons_of_le b rest hmany
    by_cases hzero : b = 0
    · subst hzero
      rw [leadingZeroBits?_zero_cons rest hmany, ih (by omega)]
      congr 1
      simpa using hnext.symm
    · have hstopped : leadingZeroBits bits (b :: rest) = false := by
        simpa [hzero] using hnext
      rw [leadingZeroBits?_cons_of_ne rest hmany (by omega) hzero, hstopped]

variable {filterBits : UInt8} {plotId challenge : Bytes32}

theorem passesFilter_zero (plotId challenge : Bytes32) : passesFilter 0 plotId challenge :=
  leadingZeroBits_zero _

/-- The hash of a plot and a challenge, as the number that its bytes stand for. -/
def filterHash (plotId challenge : Bytes32) : Nat :=
  (Sha256.hash (plotId.toList.reverse ++ challenge.toList.reverse)).toNat

theorem filterBits_inside (filterBits : UInt8) (hash : Bytes32) :
    filterBits.toNat ≤ 8 * hash.toList.length := by
  have hbound := filterBits.toNat_lt
  rw [hash.length_eq]
  omega

theorem passesFilter?_eq :
    passesFilter? filterBits plotId challenge =
      some (passesFilter filterBits plotId challenge) := by
  unfold passesFilter?
  split
  case isTrue hno_bits => rw [hno_bits, passesFilter_zero]
  case isFalse => exact leadingZeroBits?_eq (filterBits_inside _ _)

theorem passesFilter_iff_lt :
    passesFilter filterBits plotId challenge = true ↔
      filterHash plotId challenge < 2 ^ (256 - filterBits.toNat) := by
  have hvalue := leadingZeroBits_iff
    (filterBits_inside filterBits (Sha256.hash (plotId.wordOrder ++ challenge.wordOrder)))
  rw [SizedBytes.length_eq] at hvalue
  exact hvalue

/-- The filter looks up nothing beyond the end of the hash, and lets a plot take part exactly if the
hash of its id and the challenge, both in the order of words, is below what the bits leave of 256
bits. So without bits every plot takes part, and with fewer bits no plot drops out. -/
theorem passesFilter_iff_below (filterBits : UInt8) (plotId challenge : Bytes32) :
    passesFilter? filterBits plotId challenge = some (passesFilter filterBits plotId challenge) ∧
    (passesFilter filterBits plotId challenge = true ↔
      filterHash plotId challenge < 2 ^ (256 - filterBits.toNat)) ∧
    passesFilter 0 plotId challenge = true ∧
    ∀ fewer ≤ filterBits, passesFilter filterBits plotId challenge = true →
      passesFilter fewer plotId challenge = true := by
  refine ⟨passesFilter?_eq, passesFilter_iff_lt, passesFilter_zero plotId challenge, ?_⟩
  intro fewer hless hpasses
  rw [passesFilter_iff_lt] at hpasses ⊢
  have hwider : 256 - filterBits.toNat ≤ 256 - fewer.toNat :=
    Nat.sub_le_sub_left (UInt8.le_iff_toNat_le.1 hless) 256
  exact Nat.lt_of_lt_of_le hpasses (Nat.pow_le_pow_right (by decide) hwider)

/-- A plot that takes part with eleven bits, three of which are in the second byte, and drops out
with twelve. -/
theorem passesFilter_iff_below_eleven :
    let plotId : Bytes32 := .ofNat 32 2685
    let challenge : Bytes32 := .ofNat 32 7
    (9 : UInt8) ≤ 11 ∧ passesFilter 11 plotId challenge = true ∧
      passesFilter 9 plotId challenge = true ∧ passesFilter? 12 plotId challenge = some false := by
  intro plotId challenge
  have hrange : filterHash plotId challenge / 2 ^ 244 = 1 := by decide +kernel
  have hless : (9 : UInt8) ≤ 11 := by decide
  obtain ⟨-, hbelow, -, hfewer⟩ := passesFilter_iff_below 11 plotId challenge
  obtain ⟨hfound, hbeyond, -, -⟩ := passesFilter_iff_below 12 plotId challenge
  have hpasses : passesFilter 11 plotId challenge = true := by
    rw [hbelow]
    change _ < 2 ^ 245
    omega
  have hdrops : passesFilter 12 plotId challenge = false := by
    rw [Bool.eq_false_iff, Ne, hbeyond]
    change ¬ _ < 2 ^ 244
    omega
  exact ⟨hless, hpasses, hfewer 9 hless hpasses, hfound.trans (congrArg some hdrops)⟩

end PlotMiner
