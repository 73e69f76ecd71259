import PlotMiner.Hash.Sha256
import PlotMiner.Hash.Sha512

/-!
# Keyed hashes and key stretching

HMAC turns a hash into one that takes a key. HKDF draws key material of up to 255 digests out of a
secret, and PBKDF2 makes trying out passwords slow by iterating an HMAC.
-/

namespace PlotMiner.Keyed

/-- A hash together with the size of its blocks and of its digests, in bytes. -/
structure HashFunction where
  blockSize : Nat
  digestSize : Nat
  digest : List UInt8 → List UInt8

def sha256 : HashFunction := ⟨64, 32, fun m => (Sha256.hash m).toList⟩

def sha512 : HashFunction := ⟨128, 64, fun m => (Sha512.hash m).toList⟩

/-- The key that fills one block: a longer one is replaced by its digest. -/
def blockKey (h : HashFunction) (key : List UInt8) : List UInt8 :=
  let key := if h.blockSize < key.length then h.digest key else key
  key ++ List.replicate (h.blockSize - key.length) 0

def hmac (h : HashFunction) (key message : List UInt8) : List UInt8 :=
  let key := blockKey h key
  h.digest (key.map (· ^^^ 0x5C) ++ h.digest (key.map (· ^^^ 0x36) ++ message))

/-- The first step of HKDF: a key as long as a digest. -/
def extract (h : HashFunction) (salt secret : List UInt8) : List UInt8 := hmac h salt secret

/-- The digests that HKDF's second step is made of, from the `index`-th on, `count` of them. Each
one covers the one before it. -/
def expandBlocks (h : HashFunction) (key info : List UInt8) :
    (count index : Nat) → (previous : List UInt8) → List UInt8
  | 0, _, _ => []
  | count + 1, index, previous =>
    let block := hmac h key (previous ++ info ++ [UInt8.ofNat index])
    block ++ expandBlocks h key info count (index + 1) block

/-- The second step of HKDF: `length` bytes of key material. It can give at most 255 digests, since
their numbers are single bytes. -/
def expand? (h : HashFunction) (key info : List UInt8) (length : Nat) : Option (List UInt8) :=
  if 255 * h.digestSize < length then none
  else
    let count := (length + h.digestSize - 1) / h.digestSize
    some ((expandBlocks h key info count 1 []).take length)

/-- Adds up `rounds` further digests, each the HMAC of the one before it. -/
def stretch (h : HashFunction) (password : List UInt8) :
    (rounds : Nat) → (last sum : List UInt8) → List UInt8
  | 0, _, sum => sum
  | rounds + 1, last, sum =>
    let next := hmac h password last
    stretch h password rounds next (List.zipWith (· ^^^ ·) sum next)

/-- One block of PBKDF2, which is as long as a digest. -/
def pbkdf2 (h : HashFunction) (password salt : List UInt8) (rounds : Nat) : List UInt8 :=
  let first := hmac h password (salt ++ [0, 0, 0, 1])
  stretch h password (rounds - 1) first first

end PlotMiner.Keyed
