import PlotMiner.Proofs.Keys.Derivation

/-!
# Paths of derived keys

A path of indices leads from a key to a descendant, one child after the other, and each child is
drawn from a Lamport key of its parent. So the descendant at the end of two paths in a row is the
descendant, at the end of the second, of the one at the end of the first. No step fails as long as
every seed of 32 bytes gives a key: the material for one step is all that HKDF can give, and not a
byte more.
-/

namespace PlotMiner.Keys

open Keyed

/-- The way along a path from a key to a descendant. -/
inductive Descent (gen : KeyGenerator) : SecretKey → List UInt32 → SecretKey → Prop
  | here (sk : SecretKey) : Descent gen sk [] sk
  | child {parent next last : SecretKey} {index : UInt32} {path : List UInt32}
      (key : LamportKey parent index) (hdrawn : gen key.seed.toList = .ok next)
      (hrest : Descent gen next path last) : Descent gen parent (index :: path) last

namespace SecretKey

variable {gen : KeyGenerator} {sk last : SecretKey} {path : List UInt32}

theorem child_eq_ok_iff {index : UInt32} {next : SecretKey} :
    sk.child index gen = .ok next ↔
      ∃ key : LamportKey sk index, gen key.seed.toList = .ok next := by
  constructor
  · intro hderived
    obtain ⟨key⟩ := nonempty_lamportKey sk index
    exact ⟨key, (child_eq key gen).symm.trans hderived⟩
  · rintro ⟨key, hdrawn⟩
    exact (child_eq key gen).trans hdrawn

theorem descendant_cons_eq_ok_iff {index : UInt32} :
    sk.descendant (index :: path) gen = .ok last ↔
      ∃ next, sk.child index gen = .ok next ∧ next.descendant path gen = .ok last := by
  rw [descendant, List.foldlM_cons, bind_eq_ok]
  rfl

theorem descendant_eq_ok_iff : sk.descendant path gen = .ok last ↔ Descent gen sk path last := by
  constructor
  · intro hderived
    induction path generalizing sk with
    | nil =>
      obtain rfl : sk = last := Except.ok.inj hderived
      exact .here sk
    | cons index path ih =>
      obtain ⟨next, hfirst, hrest⟩ := descendant_cons_eq_ok_iff.1 hderived
      obtain ⟨key, hdrawn⟩ := child_eq_ok_iff.1 hfirst
      exact .child key hdrawn (ih hrest)
  · intro hdescent
    -- any Lamport key will do for a step: they all give the child the same seed
    induction hdescent with
    | here sk => rfl
    | child key hdrawn _ ih =>
      exact descendant_cons_eq_ok_iff.2 ⟨_, child_eq_ok_iff.2 ⟨key, hdrawn⟩, ih⟩

/-- Whether it succeeds or fails, a derivation along two paths in a row is one after the other. -/
theorem descendant_append (sk : SecretKey) (p q : List UInt32) (gen : KeyGenerator) :
    sk.descendant (p ++ q) gen =
      (sk.descendant p gen >>= fun middle => middle.descendant q gen) :=
  List.foldlM_append

/-- Derivation along two paths in a row is derivation along the second from what the first leads to,
and a descendant is what a way along its path leads to. Every step of the way is drawn from a
Lamport key, which there always is and which has 255 full pieces in each half. Since HKDF gives just
as many bytes, no derivation fails with a generator that has a key for every seed of at least 32
bytes. -/
theorem descendant_composes (gen : KeyGenerator) (sk : SecretKey) (p q : List UInt32) :
    sk.descendant (p ++ q) gen =
        (sk.descendant p gen >>= fun middle => middle.descendant q gen) ∧
      (∀ last, sk.descendant p gen = .ok last ↔ Descent gen sk p last) ∧
      (∀ parent index, Nonempty (LamportKey parent index) ∧ ∀ key : LamportKey parent index,
        key.pieces.length = 2 * 255 ∧ (∀ piece ∈ key.pieces, piece.length = 32) ∧
        key.seed.toList.length = 32 ∧ parent.child index gen = gen key.seed.toList) ∧
      (∀ key info length,
        (∃ material, expand? sha256 key info length = some material ∧ material.length = length) ↔
          length ≤ 32 * 255) ∧
      (gen.Total → ∃ middle last, sk.descendant p gen = .ok middle ∧
        middle.descendant q gen = .ok last ∧ sk.descendant (p ++ q) gen = .ok last) := by
  refine ⟨descendant_append sk p q gen, fun last => descendant_eq_ok_iff, ?_, ?_, ?_⟩
  · intro parent index
    refine ⟨nonempty_lamportKey parent index, ?_⟩
    intro key
    exact ⟨key.length_pieces, key.full, key.seed.length_eq, child_eq key gen⟩
  · intro key info length
    exact exists_expand_iff sized_sha256 key info length
  · intro htotal
    obtain ⟨middle, hfirst⟩ := exists_descendant htotal sk p
    obtain ⟨last, hsecond⟩ := exists_descendant htotal middle q
    refine ⟨middle, last, hfirst, hsecond, ?_⟩
    rw [descendant_append, hfirst]
    exact hsecond

/-- The way from the largest key to its farmer key, in two parts; and the bound that every step of
it reaches. -/
theorem descendant_composes_farmer :
    let largest : SecretKey := ⟨groupOrder - 1, by decide, by decide⟩
    let gen := KeyGenerator.withReserve ofSeed largest
    gen.Total ∧
      (∃ middle last, largest.descendant [12381, 8444] gen = .ok middle ∧
        middle.descendant [0, 0] gen = .ok last ∧ largest.farmer gen = .ok last ∧
        Descent gen largest [12381, 8444] middle) ∧
      (∃ material, expand? sha256 [] [] (32 * 255) = some material) ∧
      ¬ ∃ material, expand? sha256 [] [] (32 * 255 + 1) = some material ∧
        material.length = 32 * 255 + 1 := by
  intro largest gen
  have htotal : gen.Total := KeyGenerator.total_withReserve ofSeed largest
  obtain ⟨-, hleads, -, hbound, hcomposed⟩ :=
    descendant_composes gen largest [12381, 8444] [0, 0]
  obtain ⟨middle, last, hfirst, hsecond, hboth⟩ := hcomposed htotal
  obtain ⟨material, hdrawn, -⟩ := (hbound [] [] (32 * 255)).2 (by decide)
  refine ⟨htotal, ⟨middle, last, hfirst, hsecond, hboth, (hleads middle).1 hfirst⟩,
    ⟨material, hdrawn⟩, ?_⟩
  intro hmore
  exact absurd ((hbound [] [] (32 * 255 + 1)).1 hmore) (by decide)

end SecretKey

end PlotMiner.Keys
