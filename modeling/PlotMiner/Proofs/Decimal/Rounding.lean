import Mathlib.Tactic.Ring
import Mathlib.Tactic.SplitIfs
import PlotMiner.Decimal.Binary64

/-!
# How doubles are rounded

The arithmetic of doubles shifts a mantissa to the right until 53 bits hold it, and keeps two
further bits to round it by. What it comes to is the quotient by a power of two, rounded to the
nearest integer and to the even one in a tie (`divRoundEven`), with one more shift where rounding
carries.
-/

namespace PlotMiner

open Float.Model (Format UnpackedFloat totalExponent)
open Float.Model.UnpackedFloat

theorem divRoundEven_one (n : Nat) : divRoundEven n 1 = n := by
  simp [divRoundEven, Nat.mod_one]

theorem div_le_divRoundEven (n d : Nat) : n / d ≤ divRoundEven n d := by
  unfold divRoundEven
  dsimp only
  split_ifs <;> omega

theorem divRoundEven_le_div_succ (n d : Nat) : divRoundEven n d ≤ n / d + 1 := by
  unfold divRoundEven
  dsimp only
  split_ifs <;> omega

theorem divRoundEven_mul (q : Nat) {d : Nat} (hd : 0 < d) : divRoundEven (q * d) d = q := by
  simp [divRoundEven, hd]

theorem divRoundEven_mul_mul (n d : Nat) {c : Nat} (hc : 0 < c) :
    divRoundEven (n * c) (d * c) = divRoundEven n d := by
  have hless (a b : Nat) : a * c < b * c ↔ a < b := Nat.mul_lt_mul_right hc
  simp only [divRoundEven, Nat.mul_div_mul_right _ _ hc, Nat.mul_mod_mul_right, ← Nat.mul_assoc,
    hless]

theorem le_divRoundEven {n d q : Nat} (hd : 0 < d) (h : q * d ≤ n) : q ≤ divRoundEven n d :=
  Nat.le_trans ((Nat.le_div_iff_mul_le hd).2 h) (div_le_divRoundEven n d)

theorem divRoundEven_le {n d q : Nat} (hd : 0 < d) (h : n ≤ q * d) : divRoundEven n d ≤ q := by
  rcases Nat.eq_or_lt_of_le h with rfl | hless
  · exact Nat.le_of_eq (divRoundEven_mul q hd)
  · have hbelow : n / d < q := (Nat.div_lt_iff_lt_mul hd).2 hless
    exact Nat.le_trans (divRoundEven_le_div_succ n d) hbelow

/-- A mantissa with its round bit and its sticky bit stands for `n / 2 ^ s`. -/
structure Represents (em : ExtendedMantissa) (n s : Nat) : Prop where
  mantissa : em.mantissa = n / 2 ^ s
  roundBit : em.roundBit = true ↔ 2 ^ s ≤ 2 * (n % 2 ^ s)
  stickyBit : em.stickyBit = true ↔ n % 2 ^ s ≠ 0 ∧ 2 * (n % 2 ^ s) ≠ 2 ^ s

theorem represents_exact (n : Nat) :
    Represents (ExtendedMantissa.ofMantissaAndAccuracy n .exact) n 0 := by
  constructor <;> simp [ExtendedMantissa.ofMantissaAndAccuracy, Nat.mod_one]

theorem Represents.shiftRightOne {em : ExtendedMantissa} {n s : Nat} (h : Represents em n s) :
    Represents em.shiftRightOne n (s + 1) := by
  have hpositive : 0 < 2 ^ s := Nat.two_pow_pos s
  have hless : n % 2 ^ s < 2 ^ s := Nat.mod_lt _ hpositive
  have hsplit : n % (2 ^ s * 2) = n % 2 ^ s + 2 ^ s * (n / 2 ^ s % 2) := Nat.mod_mul
  obtain ⟨hmantissa, hroundBit, hstickyBit⟩ := h
  have hlast : n / 2 ^ s % 2 = 0 ∨ n / 2 ^ s % 2 = 1 := Nat.mod_two_eq_zero_or_one _
  constructor
  · rw [ExtendedMantissa.shiftRightOne, hmantissa, Nat.div_div_eq_div_mul, pow_succ]
  · simp only [ExtendedMantissa.shiftRightOne, hmantissa, bne_iff_ne, pow_succ, hsplit]
    rcases hlast with hlast | hlast <;> rw [hlast] <;> omega
  · simp only [ExtendedMantissa.shiftRightOne, Bool.or_eq_true, hroundBit, hstickyBit, pow_succ,
      hsplit]
    rcases hlast with hlast | hlast <;> rw [hlast] <;> omega

theorem Represents.shiftRight (n s : Nat) :
    Represents (ExtendedMantissa.ofMantissaAndAccuracy n .exact >>> s) n s := by
  change Represents (s.repeat ExtendedMantissa.shiftRightOne _) n s
  induction s with
  | zero => exact represents_exact n
  | succ s ih => exact ih.shiftRightOne

theorem Represents.roundedMantissa {em : ExtendedMantissa} {n s : Nat} (h : Represents em n s) :
    em.roundedMantissa = divRoundEven n (2 ^ s) := by
  obtain ⟨hmantissa, hroundBit, hstickyBit⟩ := h
  obtain ⟨m, r, t⟩ := em
  dsimp only at hmantissa hroundBit hstickyBit
  subst hmantissa
  unfold divRoundEven
  cases r <;> cases t <;>
    simp only [ExtendedMantissa.roundedMantissa, ExtendedMantissa.accuracy,
      Accuracy.roundToNearestEven, Bool.false_eq_true, false_iff, true_iff]
      at hroundBit hstickyBit ⊢ <;>
    split_ifs <;> omega

/-- Rounding to a power of two, as the arithmetic of doubles does it. -/
theorem roundedMantissa_shiftRight (n s : Nat) :
    (ExtendedMantissa.ofMantissaAndAccuracy n .exact >>> s).roundedMantissa =
      divRoundEven n (2 ^ s) :=
  (Represents.shiftRight n s).roundedMantissa

/-- A mantissa that fills its 53 bits, with an exponent that a double can have. -/
structure Normal (m : Nat) (e : Int) : Prop where
  leading : 2 ^ 52 ≤ m
  fits : m < 2 ^ 53
  least : -1074 ≤ e
  greatest : e ≤ 971

/-- The number `m * 2 ^ e`. -/
def positive (m : Nat) (e : Int) : UnpackedFloat :=
  if h : m = 0 then .zero .positive else .finite .positive m e (Nat.pos_of_ne_zero h)

theorem roundWithAccuracy_eq (S : Format) (m : Nat) (e : Int) :
    roundWithAccuracy S .positive m e .exact =
      let (em, e') := shiftToTargetExponent S m e .exact
      let (final, e'') := shiftToTargetExponent S em.roundedMantissa e' .exact
      positive final.mantissa e'' := rfl

theorem targetExponent_of_log2 {m s : Nat} {e : Int} (hsize : m.log2 = 52 + s)
    (hleast : -1074 ≤ e) :
    Format.binary64.targetExponent (totalExponent m e) = e + s := by
  have hlowest : Format.binary64.minExponent = -1074 := by decide
  have hbits : Format.binary64.mantissaBits = 53 := by decide
  unfold Format.targetExponent totalExponent
  rw [hlowest, hbits, hsize]
  omega

theorem shiftToTargetExponent_of_log2 {m s : Nat} {e : Int} (hsize : m.log2 = 52 + s)
    (hleast : -1074 ≤ e) :
    shiftToTargetExponent Format.binary64 m e .exact =
      (ExtendedMantissa.ofMantissaAndAccuracy m .exact >>> s, e + s) := by
  have hamount : (e + s - e : Int).toNat = s := by omega
  simp only [shiftToTargetExponent, shiftToExponent, targetExponent_of_log2 hsize hleast, hamount]

theorem divRoundEven_bounds {m s : Nat} (hsize : m.log2 = 52 + s) :
    2 ^ 52 ≤ divRoundEven m (2 ^ s) ∧ divRoundEven m (2 ^ s) ≤ 2 ^ 53 := by
  have hnonzero : m ≠ 0 := by
    rintro rfl
    rw [Nat.log2_zero] at hsize
    omega
  have hpositive : 0 < 2 ^ s := Nat.two_pow_pos s
  constructor
  · apply le_divRoundEven hpositive
    rw [← pow_add, ← hsize]
    exact Nat.log2_self_le hnonzero
  · apply divRoundEven_le hpositive
    rw [← pow_add]
    exact Nat.le_of_lt ((Nat.log2_lt hnonzero).1 (by omega))

/-- A mantissa of at least 53 bits is divided by a power of two and rounded. Where that carries into
one more bit, the mantissa is halved. -/
theorem roundWithAccuracy_of_log2 {m s : Nat} {e : Int} (hsize : m.log2 = 52 + s)
    (hleast : -1074 ≤ e) :
    roundWithAccuracy Format.binary64 .positive m e .exact =
      if divRoundEven m (2 ^ s) = 2 ^ 53 then positive (2 ^ 52) (e + s + 1)
      else positive (divRoundEven m (2 ^ s)) (e + s) := by
  obtain ⟨hlower, hupper⟩ := divRoundEven_bounds hsize
  have hleast' : -1074 ≤ e + s := by omega
  simp only [roundWithAccuracy_eq, shiftToTargetExponent_of_log2 hsize hleast,
    roundedMantissa_shiftRight]
  generalize divRoundEven m (2 ^ s) = q at *
  split_ifs with hcarries
  · subst hcarries
    have hsize' : (2 ^ 53).log2 = 52 + 1 := by decide
    simp only [shiftToTargetExponent_of_log2 hsize' hleast']
    rfl
  · have hsize' : q.log2 = 52 + 0 := by
      have hnonzero : q ≠ 0 := by omega
      have hlow : 52 ≤ q.log2 := (Nat.le_log2 hnonzero).2 hlower
      have hhigh : q.log2 < 53 := (Nat.log2_lt hnonzero).2 (by omega)
      omega
    simp only [shiftToTargetExponent_of_log2 hsize' hleast']
    simp [(Represents.shiftRight q 0).mantissa]

theorem unpackSign_packComponents {S : Format} (s : Sign) (e : BitVec S.exponentBits)
    (m : BitVec S.mantissaBitsWithoutImplicit) :
    unpackSign (packComponents S s e m) = s.toBitVec := by
  ext i hi
  have hfirst : i = 0 := by omega
  subst hfirst
  unfold unpackSign packComponents
  simp [BitVec.getLsbD_append, BitVec.getElem_append]

namespace Normal

variable {m : Nat} {e : Int}

theorem log2_eq (h : Normal m e) : m.log2 = 52 := by
  have hnonzero : m ≠ 0 := by have := h.leading; omega
  have hlow : 52 ≤ m.log2 := (Nat.le_log2 hnonzero).2 h.leading
  have hhigh : m.log2 < 53 := (Nat.log2_lt hnonzero).2 h.fits
  omega

theorem pack_eq (h : Normal m e) :
    pack Format.binary64 (positive m e) =
      packComponents Format.binary64 .positive (BitVec.ofNat 11 (e + 1075).toNat)
        (BitVec.ofNat 52 m) := by
  obtain ⟨hleading, hfits, hleast, hgreatest⟩ := h
  have hnonzero : m ≠ 0 := by omega
  have hbias : (e + Format.binary64.exponentBias + Format.binary64.mantissaBitsWithoutImplicit) =
      e + 1075 := by
    have hbias : Format.binary64.exponentBias = 1023 := by decide
    have hbits : Format.binary64.mantissaBitsWithoutImplicit = 52 := rfl
    rw [hbias, hbits]
    omega
  have hbits : Format.binary64.mantissaBits = 53 := by decide
  unfold positive
  rw [dif_neg hnonzero]
  unfold pack
  dsimp only
  rw [hbias, hbits, Normal.log2_eq ⟨hleading, hfits, hleast, hgreatest⟩]
  rw [if_neg (by omega), if_pos (by decide)]

theorem toNat_pack (h : Normal m e) :
    (pack Format.binary64 (positive m e)).toNat = (e + 1075).toNat * 2 ^ 52 + (m - 2 ^ 52) := by
  rw [h.pack_eq]
  obtain ⟨hleading, hfits, hleast, hgreatest⟩ := h
  have hexponent : (BitVec.ofNat 11 (e + 1075).toNat).toNat = (e + 1075).toNat := by
    rw [BitVec.toNat_ofNat, Nat.mod_eq_of_lt (by omega)]
  have hmantissa : (BitVec.ofNat 52 m).toNat = m - 2 ^ 52 := by
    rw [BitVec.toNat_ofNat]; omega
  have hsign : (Sign.toBitVec .positive).toNat = 0 := by decide
  simp only [packComponents, BitVec.toNat_append, hsign, hexponent, hmantissa]
  rw [Nat.zero_shiftLeft, Nat.zero_or, ← Nat.shiftLeft_add_eq_or_of_lt (by omega),
    Nat.shiftLeft_eq]

theorem unpack_pack (h : Normal m e) :
    unpack Format.binary64 (pack Format.binary64 (positive m e)) = positive m e := by
  have hpacked := h.pack_eq
  obtain ⟨hleading, hfits, hleast, hgreatest⟩ := h
  have hnonzero : m ≠ 0 := by omega
  have hexponent : (BitVec.ofNat 11 (e + 1075).toNat).toNat = (e + 1075).toNat := by
    rw [BitVec.toNat_ofNat, Nat.mod_eq_of_lt (by omega)]
  have hmantissa : (1#1 ++ BitVec.ofNat 52 m).toNat = m := by
    have hsmall : (BitVec.ofNat 52 m).toNat = m - 2 ^ 52 := by
      rw [BitVec.toNat_ofNat]; omega
    rw [BitVec.toNat_append, ← Nat.shiftLeft_add_eq_or_of_lt (BitVec.isLt _), hsmall,
      Nat.shiftLeft_eq, BitVec.toNat_one (by decide)]
    omega
  have hinside : BitVec.ofNat 11 (e + 1075).toNat ≠ -1#_ := by
    intro h
    have := congrArg BitVec.toNat h
    rw [hexponent, show (-1#11).toNat = 2047 by decide] at this
    omega
  have habove : BitVec.ofNat 11 (e + 1075).toNat ≠ 0#_ := by
    intro h
    have := congrArg BitVec.toNat h
    rw [hexponent, BitVec.toNat_zero] at this
    omega
  rw [hpacked]
  unfold unpack positive
  dsimp only
  have hbias : Format.binary64.exponentBias = 1023 := by decide
  rw [dif_neg hnonzero, unpackExponent_packComponents, if_neg hinside, if_neg habove,
    UnpackedFloat.finite.injEq, unpackMantissa_packComponents, unpackSign_packComponents, hexponent,
    hbias, hmantissa]
  exact ⟨rfl, rfl, by omega⟩

end Normal

namespace Binary64

section

variable {x : Binary64} {exponent fraction : Nat}

theorem rawExponent_of_toNat (hbits : x.bits.toNat = exponent * 2 ^ 52 + fraction)
    (hsmall : exponent < 2 ^ 11) (hfits : fraction < 2 ^ 52) : x.rawExponent = exponent := by
  have hmask : (0x7FF : UInt64).toNat = 2 ^ 11 - 1 := by decide
  rw [rawExponent, UInt64.toNat_and, hmask, Nat.and_two_pow_sub_one_eq_mod, UInt64.toNat_shiftRight,
    hbits, Nat.shiftRight_eq_div_pow]
  change (exponent * 2 ^ 52 + fraction) / 2 ^ 52 % 2 ^ 11 = exponent
  omega

theorem rawFraction_of_toNat (hbits : x.bits.toNat = exponent * 2 ^ 52 + fraction)
    (hfits : fraction < 2 ^ 52) : x.rawFraction = fraction := by
  have hmask : (0xFFFFFFFFFFFFF : UInt64).toNat = 2 ^ 52 - 1 := by decide
  rw [rawFraction, UInt64.toNat_and, hmask, Nat.and_two_pow_sub_one_eq_mod, hbits]
  omega

theorem isNegative_of_toNat (hbits : x.bits.toNat = exponent * 2 ^ 52 + fraction)
    (hsmall : exponent < 2 ^ 11) (hfits : fraction < 2 ^ 52) : x.isNegative = false := by
  have htop : (x.bits >>> 63).toNat = 0 := by
    rw [UInt64.toNat_shiftRight, hbits, Nat.shiftRight_eq_div_pow]
    change (exponent * 2 ^ 52 + fraction) / 2 ^ 63 = 0
    omega
  rw [isNegative, beq_eq_false_iff_ne]
  intro h
  rw [h] at htop
  simp at htop

end

end Binary64

structure Binary64.Is (x : Binary64) (m : Nat) (e : Int) : Prop where
  isFinite : x.isFinite = true
  isNegative : x.isNegative = false
  mantissa : x.mantissa = m
  exponent : x.exponent = e

theorem Normal.ofFloat_pack {m : Nat} {e : Int} (h : Normal m e) :
    (Binary64.ofFloat (.ofModel (.pack (positive m e)))).Is m e := by
  have hbits : (Binary64.ofFloat (.ofModel (.pack (positive m e)))).bits.toNat =
      (e + 1075).toNat * 2 ^ 52 + (m - 2 ^ 52) := h.toNat_pack
  obtain ⟨hleading, hfits, hleast, hgreatest⟩ := h
  have hexponent := Binary64.rawExponent_of_toNat hbits (by omega) (by omega)
  have hfraction := Binary64.rawFraction_of_toNat hbits (by omega)
  have habove : (e + 1075).toNat ≠ 0 := by omega
  constructor
  · rw [Binary64.isFinite, hexponent, bne_iff_ne]
    omega
  · exact Binary64.isNegative_of_toNat hbits (by omega) (by omega)
  · have hleadingBit : Binary64.leadingBit = 2 ^ 52 := by decide
    rw [Binary64.mantissa, hexponent, hfraction, if_neg habove, hleadingBit]
    omega
  · rw [Binary64.exponent, hexponent, if_neg habove]
    omega

theorem ofNat_eq_round {n : Nat} (h : 0 < n) :
    ofNat Format.binary64 n = UnpackedFloat.round Format.binary64 .positive n 0 := by
  have hgreater : compare (n : Int) 0 = .gt := by
    rw [Int.compare_eq_gt]
    omega
  unfold ofNat ofInt UnpackedFloat.normalize
  rw [hgreater]
  rfl

theorem scaled_bounds {n s : Nat} (hsize : n.log2 + s = 52) (h : 0 < n) :
    2 ^ 52 ≤ n * 2 ^ s ∧ n * 2 ^ s < 2 ^ 53 := by
  have hlow := Nat.mul_le_mul_right (2 ^ s) (Nat.log2_self_le h.ne')
  have hhigh := Nat.mul_lt_mul_of_pos_right (Nat.lt_log2_self (n := n)) (Nat.two_pow_pos s)
  rw [← pow_add, hsize] at hlow
  rw [← pow_add, Nat.add_right_comm, hsize] at hhigh
  exact ⟨hlow, hhigh⟩

theorem round_small {n s : Nat} (hsize : n.log2 + s = 52) (h : 0 < n) :
    UnpackedFloat.round Format.binary64 .positive n 0 = positive (n * 2 ^ s) (-s) := by
  have hlowest : Format.binary64.minExponent = -1074 := by decide
  have hbits : Format.binary64.mantissaBits = 53 := by decide
  have htarget : Format.binary64.targetExponent (totalExponent n 0) = -s := by
    unfold Format.targetExponent totalExponent
    rw [hlowest, hbits]
    omega
  have hamount : (0 - -(s : Int)).toNat = s := by omega
  obtain ⟨hleading, hfits⟩ := scaled_bounds hsize h
  have hscaled : (n * 2 ^ s).log2 = 52 + 0 := by
    rw [Nat.log2_eq_iff (by omega)]
    exact ⟨hleading, hfits⟩
  simp only [UnpackedFloat.round, htarget, decreaseExponent, hamount, Nat.shiftLeft_eq]
  rw [roundWithAccuracy_of_log2 hscaled (by omega), pow_zero, divRoundEven_one, if_neg (by omega)]
  congr 1
  omega

theorem round_large {n s : Nat} (hsize : n.log2 = 52 + s) :
    UnpackedFloat.round Format.binary64 .positive n 0 =
      if divRoundEven n (2 ^ s) = 2 ^ 53 then positive (2 ^ 52) (s + 1)
      else positive (divRoundEven n (2 ^ s)) s := by
  have htarget := targetExponent_of_log2 (e := 0) hsize (by omega)
  have hamount : (0 - (0 + s) : Int).toNat = 0 := by omega
  simp only [UnpackedFloat.round, htarget, decreaseExponent, hamount, Nat.shiftLeft_zero]
  rw [roundWithAccuracy_of_log2 hsize (by omega)]
  simp only [Int.ofNat_zero, Int.sub_zero, Int.zero_add]

theorem mul_positive {m₁ m₂ s : Nat} {e₁ e₂ : Int} (hsize : (m₁ * m₂).log2 = 52 + s)
    (hleast : -1074 ≤ e₁ + e₂) :
    mul Format.binary64 (positive m₁ e₁) (positive m₂ e₂) =
      if divRoundEven (m₁ * m₂) (2 ^ s) = 2 ^ 53 then positive (2 ^ 52) (e₁ + e₂ + s + 1)
      else positive (divRoundEven (m₁ * m₂) (2 ^ s)) (e₁ + e₂ + s) := by
  have hnonzero : m₁ * m₂ ≠ 0 := by
    intro h
    rw [h, Nat.log2_zero] at hsize
    omega
  obtain ⟨h₁, h₂⟩ := Nat.mul_ne_zero_iff.1 hnonzero
  rw [← roundWithAccuracy_of_log2 hsize hleast]
  unfold positive
  rw [dif_neg h₁, dif_neg h₂]
  rfl

end PlotMiner
