import PlotMiner.Hash.Keyed

/-!
# The sizes of keyed hashes and of key material

All digests of a hash are equally long, and so are the digests that an HMAC makes of it. That is
what HKDF's bound of 255 digests is about: up to it, all the material that is asked for can be
drawn.
-/

namespace PlotMiner

namespace Keyed

/-- Every digest is as long as the hash says, and not empty. -/
structure HashFunction.Sized (h : HashFunction) : Prop where
  pos : 0 < h.digestSize
  length_digest : ∀ message, (h.digest message).length = h.digestSize

theorem sized_sha256 : sha256.Sized where
  pos := by decide
  length_digest message := (Sha256.hash message).length_eq

theorem sized_sha512 : sha512.Sized where
  pos := by decide
  length_digest message := (Sha512.hash message).length_eq

variable {h : HashFunction} (hsized : h.Sized)

include hsized

theorem length_hmac (key message : List UInt8) : (hmac h key message).length = h.digestSize :=
  hsized.length_digest _

theorem length_expandBlocks (key info : List UInt8) (count index : Nat) (previous : List UInt8) :
    (expandBlocks h key info count index previous).length = count * h.digestSize := by
  induction count generalizing index previous with
  | zero => simp [expandBlocks]
  | succ count ih => simp [expandBlocks, ih, length_hmac hsized, Nat.succ_mul, Nat.add_comm]

theorem exists_expand (key info : List UInt8) {length : Nat}
    (hbound : length ≤ 255 * h.digestSize) :
    ∃ material, expand? h key info length = some material ∧ material.length = length := by
  have henough : length ≤ (length + h.digestSize - 1) / h.digestSize * h.digestSize := by
    have hleft := Nat.mod_lt (length + h.digestSize - 1) hsized.pos
    have hwhole := Nat.div_add_mod' (length + h.digestSize - 1) h.digestSize
    omega
  refine ⟨_, if_neg (Nat.not_lt.2 hbound), ?_⟩
  rw [List.length_take, length_expandBlocks hsized, Nat.min_eq_left henough]

theorem exists_expand_iff (key info : List UInt8) (length : Nat) :
    (∃ material, expand? h key info length = some material ∧ material.length = length) ↔
      length ≤ 255 * h.digestSize := by
  constructor
  · rintro ⟨material, hdrawn, -⟩
    refine Nat.le_of_not_lt fun hbeyond => ?_
    rw [expand?, if_pos hbeyond] at hdrawn
    cases hdrawn
  · exact exists_expand hsized key info

theorem length_stretch (password : List UInt8) (rounds : Nat) (last : List UInt8)
    {sum : List UInt8} (hfull : sum.length = h.digestSize) :
    (stretch h password rounds last sum).length = h.digestSize := by
  induction rounds generalizing last sum with
  | zero => exact hfull
  | succ rounds ih =>
    refine ih _ ?_
    rw [List.length_zipWith, hfull, length_hmac hsized, Nat.min_self]

theorem length_pbkdf2 (password salt : List UInt8) (rounds : Nat) :
    (pbkdf2 h password salt rounds).length = h.digestSize :=
  length_stretch hsized password _ _ (length_hmac hsized password _)

end Keyed

end PlotMiner
