import PlotMiner.Keys.Secret
import PlotMiner.Proofs.Bytes
import PlotMiner.Proofs.Except
import PlotMiner.Proofs.Hash.Keyed

/-!
# The Lamport key that a child is drawn from

Material is drawn twice, from the secret of the parent and from its complement, and each time as
much as HKDF can give. It is cut into full pieces, each piece is hashed, and the seed of the child
is the digest of the hashes. Every parent has such a key for every index, and a child is what the
generator makes of its seed (`SecretKey.child_eq`).
-/

namespace PlotMiner.Keys

open Keyed

/-- The material that is drawn from a secret and what it is cut into. -/
structure LamportHalf (salt secret : List UInt8) where
  material : List UInt8
  drawn : expand? sha256 (extract sha256 salt secret) [] (32 * 255) = some material
  pieces : List (List UInt8)
  joined : pieces.flatten = material
  count : pieces.length = 255
  full : ∀ p ∈ pieces, p.length = 32

/-- The private Lamport key of a parent for an index. -/
structure LamportKey (parent : SecretKey) (index : UInt32) where
  /-- The index, its most significant byte first. -/
  salt : List UInt8
  length_salt : salt.length = 4
  salt_worth : natOfBytes salt = index.toNat
  first : LamportHalf salt parent.toBytes.toList
  second : LamportHalf salt (parent.toBytes.toList.map (· ^^^ 0xFF))

theorem nonempty_lamportHalf (salt secret : List UInt8) : Nonempty (LamportHalf salt secret) := by
  have hbound : 32 * 255 ≤ 255 * sha256.digestSize := by decide
  obtain ⟨material, hdrawn, hlength⟩ :=
    exists_expand sized_sha256 (extract sha256 salt secret) [] hbound
  obtain ⟨pieces, hjoined, hcount, hfull⟩ :=
    Block.exists_pieces (hlength.trans (Nat.mul_comm 32 255))
  exact ⟨material, hdrawn, pieces, hjoined, hcount, hfull⟩

theorem LamportHalf.lamportHalf_eq {salt secret : List UInt8} {index : UInt32}
    (hsalted : SecretKey.indexBytes index = salt) (half : LamportHalf salt secret) :
    SecretKey.lamportHalf secret index = .ok half.pieces := by
  rw [SecretKey.lamportHalf, SecretKey.lamportLength, hsalted, half.drawn, ← half.joined]
  exact congrArg _ (Block.chunks_flatten (by decide) half.full)

variable {parent : SecretKey} {index : UInt32}

namespace LamportKey

def pieces (key : LamportKey parent index) : List (List UInt8) :=
  key.first.pieces ++ key.second.pieces

theorem length_pieces (key : LamportKey parent index) : key.pieces.length = 2 * 255 := by
  rw [pieces, List.length_append, key.first.count, key.second.count]

theorem full (key : LamportKey parent index) : ∀ p ∈ key.pieces, p.length = 32 :=
  List.forall_mem_append.2 ⟨key.first.full, key.second.full⟩

/-- The seed of the child: the digest of the public key, which the hashes of the pieces make up. -/
def seed (key : LamportKey parent index) : Bytes32 :=
  Sha256.hash (key.pieces.flatMap fun p => (Sha256.hash p).toList)

theorem indexBytes_eq (key : LamportKey parent index) : SecretKey.indexBytes index = key.salt := by
  rw [SecretKey.indexBytes, ← key.salt_worth, ← key.length_salt, bytesOfNat_natOfBytes]

theorem lamportDigest_eq (key : LamportKey parent index) :
    parent.lamportDigest index = .ok key.seed.toList :=
  bind_eq_ok.2 ⟨_, key.first.lamportHalf_eq key.indexBytes_eq,
    bind_eq_ok.2 ⟨_, key.second.lamportHalf_eq key.indexBytes_eq, rfl⟩⟩

end LamportKey

theorem nonempty_lamportKey (parent : SecretKey) (index : UInt32) :
    Nonempty (LamportKey parent index) := by
  obtain ⟨first⟩ := nonempty_lamportHalf (SecretKey.indexBytes index) parent.toBytes.toList
  obtain ⟨second⟩ := nonempty_lamportHalf (SecretKey.indexBytes index)
    (parent.toBytes.toList.map (· ^^^ 0xFF))
  exact ⟨SecretKey.indexBytes index, length_bytesOfNat 4 index.toNat,
    natOfBytes_bytesOfNat index.toNat_lt, first, second⟩

theorem SecretKey.child_eq (key : LamportKey parent index) (gen : KeyGenerator) :
    parent.child index gen = gen key.seed.toList := by
  rw [child, key.lamportDigest_eq]
  rfl

end PlotMiner.Keys
