import PlotMiner.Mining.Context
import PlotMiner.Proofs.Decimal.Rounding

/-!
# How long a wait for a time proof can be

The span of a wait is computed in doubles from the target duration that the node reports. It is
followed here through the mantissas and exponents of those doubles, up to the greatest target
duration for which there is such a span (`Timings.isSome_vdfTimeout?_iff`).
-/

namespace PlotMiner.Mining

open Float.Model (Format UnpackedFloat)
open Float.Model.UnpackedFloat

theorem mul_two_pow_lt_iff {m k : Nat} (hleading : 2 ^ 52 ≤ m) (hfits : m < 2 ^ 53) :
    m * 2 ^ k < 2 ^ 64 ↔ k ≤ 11 := by
  constructor
  · intro hless
    by_contra hlarge
    have hleast : 2 ^ 52 * 2 ^ 12 ≤ m * 2 ^ k :=
      Nat.mul_le_mul hleading (Nat.pow_le_pow_right (by decide) (by omega))
    omega
  · intro hsmall
    calc m * 2 ^ k < 2 ^ 53 * 2 ^ k := Nat.mul_lt_mul_of_pos_right hfits (Nat.two_pow_pos k)
      _ ≤ 2 ^ 53 * 2 ^ 11 := Nat.mul_le_mul_left _ (Nat.pow_le_pow_right (by decide) hsmall)

/-- A double counts as a number of seconds up to an exponent of eleven. -/
theorem isSome_duration?_iff {x : Float} {m : Nat} {e : Int} (his : (Binary64.ofFloat x).Is m e)
    (hnormal : Normal m e) : (duration? x).isSome ↔ e ≤ 11 := by
  obtain ⟨hleading, hfits, hleast, hgreatest⟩ := hnormal
  obtain ⟨hisFinite, hisNegative, hmantissa, hexponent⟩ := his
  have hsize : UInt64.size = 2 ^ 64 := rfl
  have hnanos : second = 10 ^ 9 := rfl
  have hsome_iff {n : Nat} :
      (if n < 2 ^ 64 * 10 ^ 9 then some n else none).isSome ↔ n < 2 ^ 64 * 10 ^ 9 := by
    split <;> simp_all
  unfold duration?
  simp only [hisFinite, hisNegative, hmantissa, hexponent, hsize, hnanos, Bool.not_true,
    Bool.false_and, Bool.or_self, Bool.false_eq_true, if_false, hsome_iff]
  split
  case isTrue hnonneg =>
    obtain ⟨k, rfl⟩ := Int.eq_ofNat_of_zero_le hnonneg
    rw [Int.toNat_natCast, Nat.shiftLeft_eq, Nat.mul_right_comm,
      Nat.mul_lt_mul_right (by decide), mul_two_pow_lt_iff hleading hfits]
    omega
  case isFalse hnegative =>
    have hbound : divRoundEven (m * 10 ^ 9) (1 <<< (-e).toNat) ≤ m * 10 ^ 9 := by
      rw [Nat.one_shiftLeft]
      exact divRoundEven_le (Nat.two_pow_pos _) (Nat.le_mul_of_pos_right _ (Nat.two_pow_pos _))
    constructor
    · omega
    · intro
      omega

theorem unpack_one_and_a_half : (1.5 : Float).toModel.unpack = positive (3 * 2 ^ 51) (-52) := rfl

theorem toModel_mul {m₁ m₂ : Nat} {e₁ e₂ : Int} {x : Float} (h : Normal m₁ e₁)
    (hx : x.toModel.unpack = positive m₂ e₂) :
    Float.ofModel (.pack (positive m₁ e₁)) * x =
      .ofModel (.pack (mul Format.binary64 (positive m₁ e₁) (positive m₂ e₂))) := by
  have hunpacked : (Float.Model.pack (positive m₁ e₁)).unpack = positive m₁ e₁ := h.unpack_pack
  rw [← hx]
  conv_rhs => rw [← hunpacked]
  rfl

/-- Where one and a half times the mantissa leaves room, the exponent stays. -/
theorem mul_positive_of_lt {m : Nat} {e : Int} (h : Normal m e) (hleast : -1000 ≤ e)
    (hroom : 3 * m < 2 ^ 54 - 1) :
    ∃ m', Normal m' e ∧
      mul Format.binary64 (positive m e) (positive (3 * 2 ^ 51) (-52)) = positive m' e := by
  have hproduct : m * (3 * 2 ^ 51) = 3 * m * 2 ^ 51 := by ring
  have hleading := h.leading
  have hsize : (m * (3 * 2 ^ 51)).log2 = 52 + 52 := by
    rw [Nat.log2_eq_iff (by omega)]
    omega
  have hhalved : divRoundEven (m * (3 * 2 ^ 51)) (2 ^ 52) = divRoundEven (3 * m) 2 := by
    rw [hproduct]
    exact divRoundEven_mul_mul (3 * m) 2 (Nat.two_pow_pos 51)
  have hbounds : 2 ^ 52 ≤ divRoundEven (3 * m) 2 ∧ divRoundEven (3 * m) 2 < 2 ^ 53 := by
    unfold divRoundEven
    dsimp only
    split_ifs <;> omega
  refine ⟨divRoundEven (3 * m) 2, ⟨hbounds.1, hbounds.2, h.least, h.greatest⟩, ?_⟩
  rw [mul_positive hsize (by omega), hhalved, if_neg (by omega)]
  congr 1
  omega

/-- Where it leaves none, or only half a unit, which rounding takes away, the exponent grows. -/
theorem mul_positive_of_le {m : Nat} {e : Int} (h : Normal m e) (hleast : -1000 ≤ e)
    (hgreatest : e ≤ 900) (hfull : 2 ^ 54 - 1 ≤ 3 * m) :
    ∃ m', Normal m' (e + 1) ∧
      mul Format.binary64 (positive m e) (positive (3 * 2 ^ 51) (-52)) = positive m' (e + 1) := by
  have hproduct : m * (3 * 2 ^ 51) = 3 * m * 2 ^ 51 := by ring
  have hfits := h.fits
  rcases Nat.eq_or_lt_of_le hfull with hhalf | habove
  · have hvalue : m = 6004799503160661 := by omega
    subst hvalue
    refine ⟨2 ^ 52, ⟨by decide, by decide, by omega, by omega⟩, ?_⟩
    rw [mul_positive (s := 52) (by decide) (by omega), if_pos (by decide)]
    congr 1
    omega
  · have hsize : (m * (3 * 2 ^ 51)).log2 = 52 + 53 := by
      rw [Nat.log2_eq_iff (by omega)]
      omega
    have hquartered : divRoundEven (m * (3 * 2 ^ 51)) (2 ^ 53) = divRoundEven (3 * m) 4 := by
      rw [hproduct]
      exact divRoundEven_mul_mul (3 * m) 4 (Nat.two_pow_pos 51)
    have hbounds : 2 ^ 52 ≤ divRoundEven (3 * m) 4 ∧ divRoundEven (3 * m) 4 < 2 ^ 53 := by
      unfold divRoundEven
      dsimp only
      split_ifs <;> omega
    refine ⟨divRoundEven (3 * m) 4, ⟨hbounds.1, hbounds.2, by omega, by omega⟩, ?_⟩
    rw [mul_positive hsize (by omega), hquartered, if_neg (by omega)]
    congr 1
    omega

/-- One and a half times a number of seconds is a span of time where the number is below
two thirds of the range. -/
theorem isSome_duration?_mul_iff {m : Nat} {e : Int} (h : Normal m e) (hleast : -1000 ≤ e)
    (hgreatest : e ≤ 900) :
    (duration? (Float.ofModel (.pack (positive m e)) * 1.5)).isSome ↔
      e < 11 ∨ e = 11 ∧ 3 * m < 2 ^ 54 - 1 := by
  rw [toModel_mul h unpack_one_and_a_half]
  by_cases hroom : 3 * m < 2 ^ 54 - 1
  · obtain ⟨m', hnormal, hproduct⟩ := mul_positive_of_lt h hleast hroom
    rw [hproduct, isSome_duration?_iff hnormal.ofFloat_pack hnormal]
    omega
  · obtain ⟨m', hnormal, hproduct⟩ := mul_positive_of_le h hleast hgreatest (by omega)
    rw [hproduct, isSome_duration?_iff hnormal.ofFloat_pack hnormal]
    omega

/-- The greatest target duration, in seconds, for which there is a span to wait for. -/
def greatestTarget : Nat := 12297829382473032704

theorem toFloat_eq_round {n : UInt64} (h : 0 < n.toNat) :
    n.toFloat = .ofModel (.pack (UnpackedFloat.round Format.binary64 .positive n.toNat 0)) := by
  rw [← ofNat_eq_round h]
  rfl

theorem isSome_duration?_of_small {n s : Nat} (hsize : n.log2 + s = 52) (h : 0 < n) :
    (duration? (Float.ofModel (.pack (UnpackedFloat.round Format.binary64 .positive n 0)) *
      1.5)).isSome := by
  obtain ⟨hleading, hfits⟩ := scaled_bounds hsize h
  have hnormal : Normal (n * 2 ^ s) (-s) := ⟨hleading, hfits, by omega, by omega⟩
  rw [round_small hsize h, isSome_duration?_mul_iff hnormal (by omega) (by omega)]
  omega

theorem isSome_duration?_of_large {n s : Nat} (hsize : n.log2 = 52 + s) (hrange : n < 2 ^ 64) :
    (duration? (Float.ofModel (.pack (UnpackedFloat.round Format.binary64 .positive n 0)) *
      1.5)).isSome ↔ n ≤ greatestTarget := by
  have hnonzero : n ≠ 0 := by
    rintro rfl
    simp at hsize
    omega
  have hbits : n.log2 < 64 := (Nat.log2_lt hnonzero).2 hrange
  obtain ⟨hleading, hfits⟩ := divRoundEven_bounds hsize
  -- only numbers that take all of the 64 bits can be too large, and those are rounded to 2048
  have hbelow : s ≠ 11 → n < 2 ^ 63 := fun hnotAll =>
    Nat.lt_of_lt_of_le Nat.lt_log2_self (Nat.pow_le_pow_right (by decide) (by omega))
  have hrounded : s = 11 →
      (divRoundEven n (2 ^ s) ≤ 6004799503160660 ↔ n ≤ 12297829382473032704) := by
    rintro rfl
    unfold divRoundEven
    dsimp only
    split_ifs <;> omega
  unfold greatestTarget
  rw [round_large hsize]
  split
  case isTrue hcarries =>
    have hnormal : Normal (2 ^ 52) (s + 1) := ⟨by decide, by decide, by omega, by omega⟩
    rw [isSome_duration?_mul_iff hnormal (by omega) (by omega)]
    omega
  case isFalse =>
    have hnormal : Normal (divRoundEven n (2 ^ s)) s := ⟨hleading, by omega, by omega, by omega⟩
    rw [isSome_duration?_mul_iff hnormal (by omega) (by omega)]
    omega

theorem isSome_vdfTimeout?_iff (t : Timings) (hfactor : t.vdfTimeoutFactor = 1.5) (n : UInt64) :
    (t.vdfTimeout? n).isSome ↔ n.toNat ≤ greatestTarget := by
  unfold Timings.vdfTimeout?
  rw [hfactor]
  rcases Nat.eq_zero_or_pos n.toNat with hzero | h
  · obtain rfl : n = 0 := UInt64.toNat_inj.1 hzero
    exact ⟨fun _ => by decide, fun _ => by rfl⟩
  · rw [toFloat_eq_round h]
    by_cases hsmall : n.toNat.log2 ≤ 52
    · obtain ⟨s, hsize⟩ := Nat.exists_eq_add_of_le hsmall
      have hbelow : n.toNat < 2 ^ 53 :=
        Nat.lt_of_lt_of_le Nat.lt_log2_self (Nat.pow_le_pow_right (by decide) (by omega))
      have hinRange : n.toNat ≤ greatestTarget := by
        unfold greatestTarget
        omega
      exact ⟨fun _ => hinRange, fun _ => isSome_duration?_of_small hsize.symm h⟩
    · obtain ⟨s, hsize⟩ := Nat.exists_eq_add_of_le (Nat.le_of_lt (Nat.lt_of_not_le hsmall))
      exact isSome_duration?_of_large hsize n.toNat_lt

end PlotMiner.Mining
