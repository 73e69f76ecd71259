import PlotMiner.Hash.Keyed
import PlotMiner.Keys.Curve
import PlotMiner.Text.Utf8

/-!
# Secret keys and their derivation

A secret key is a number between zero and the order of the group of public keys, both excluded. It
is drawn from a seed by a key derivation function. A child key is drawn from the digest of a long
list of hashes that the parent determines, so that it cannot be related to the parent; a path of
indices leads from a key to one of its descendants.

How a seed gives a key is up to the library of the curve. Whatever derives keys takes it as a
parameter, which stands for `SecretKey.ofSeed` where nothing else is given.
-/

namespace PlotMiner.Keys

open Keyed

/-- The order of the group of public keys. -/
def groupOrder : Nat := 0x73eda753299d7d483339d80809a1d80553bda402fffe5bfeffffffff00000001

structure SecretKey where
  value : Nat
  pos : 0 < value
  lt : value < groupOrder
deriving DecidableEq

namespace SecretKey

def ofNat? (n : Nat) : Option SecretKey :=
  if h : 0 < n ∧ n < groupOrder then some ⟨n, h.1, h.2⟩ else none

def toBytes (sk : SecretKey) : Bytes32 := .ofNat 32 sk.value

def ofBytes (b : Bytes32) : Except KeyError SecretKey :=
  match ofNat? b.toNat with
  | some sk => .ok sk
  | none => .error .badEncoding

def publicKey (sk : SecretKey) : PublicKey := Point.generator.times sk.value

def firstSalt : List UInt8 := Text.utf8 "BLS-SIG-KEYGEN-SALT-".toList

/-- How many attempts are made; that one of them fails has a probability below `2 ^ -254`. -/
def maxAttempts : Nat := 64

/-- Draws a number below the group order with one salt after the other until one is not zero. -/
def draw (seed : List UInt8) : (attempts : Nat) → (salt : List UInt8) → Except KeyError SecretKey
  | 0, _ => .error .badEncoding
  | attempts + 1, salt =>
    match expand? sha256 (extract sha256 salt (seed ++ [0])) [0, 48] 48 with
    | none => .error .tooMuchMaterial
    | some material =>
      match ofNat? (natOfBytes material % groupOrder) with
      | some sk => .ok sk
      | none => draw seed attempts (Sha256.hash salt).toList

/-- The key that belongs to a seed, which has to have at least 32 bytes. -/
def ofSeed (seed : List UInt8) : Except KeyError SecretKey :=
  if seed.length < 32 then .error .badEncoding else draw seed maxAttempts firstSalt

end SecretKey

abbrev KeyGenerator := List UInt8 → Except KeyError SecretKey

namespace SecretKey

def indexBytes (index : UInt32) : List UInt8 := bytesOfNat 4 index.toNat

/-- How many hashes each half of a Lamport key has. -/
def lamportLength : Nat := 255

/-- The secret half of a Lamport key: digests drawn from a secret with the index as salt. -/
def lamportHalf (secret : List UInt8) (index : UInt32) : Except KeyError (List (List UInt8)) :=
  match expand? sha256 (extract sha256 (indexBytes index) secret) [] (32 * lamportLength) with
  | none => .error .tooMuchMaterial
  | some material => .ok (Block.chunks 32 material)

/-- The digest of the public Lamport key of a parent: the hashes of both halves, the second half
being drawn from the complement of the secret. -/
def lamportDigest (sk : SecretKey) (index : UInt32) : Except KeyError (List UInt8) := do
  let secret := sk.toBytes.toList
  let first ← lamportHalf secret index
  let second ← lamportHalf (secret.map (· ^^^ 0xFF)) index
  return (Sha256.hash ((first ++ second).flatMap fun c => (Sha256.hash c).toList)).toList

def child (sk : SecretKey) (index : UInt32) (gen : KeyGenerator := ofSeed) :
    Except KeyError SecretKey := do
  gen (← sk.lamportDigest index)

def descendant (sk : SecretKey) (path : List UInt32) (gen : KeyGenerator := ofSeed) :
    Except KeyError SecretKey :=
  path.foldlM (fun sk index => sk.child index gen) sk

/-- The first index of all paths. -/
def purpose : UInt32 := 12381

/-- The second index of all paths: the chain. -/
def chain : UInt32 := 8444

def farmerPath : UInt32 := 0

def localPath : UInt32 := 3

def farmer (master : SecretKey) (gen : KeyGenerator := ofSeed) : Except KeyError SecretKey :=
  master.descendant [purpose, chain, farmerPath, 0] gen

def plotLocal (master : SecretKey) (gen : KeyGenerator := ofSeed) : Except KeyError SecretKey :=
  master.descendant [purpose, chain, localPath, 0] gen

end SecretKey

end PlotMiner.Keys
