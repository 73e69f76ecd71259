import PlotMiner.Keys.Mnemonic
import PlotMiner.Proofs.Keys.Lamport

/-!
# Derivation of keys never fails

A generator of keys may refuse seeds that are too short. The seed that a child key is drawn from is
always made, since the material that it asks for is within HKDF's bound, and is never too short; and
neither is the seed of a mnemonic. So nothing but the mnemonic itself can be wrong.
-/

namespace PlotMiner.Keys

open Keyed

/-- Every seed that is long enough gives a key. -/
def KeyGenerator.Total (gen : KeyGenerator) : Prop :=
  ∀ seed, 32 ≤ seed.length → ∃ sk, gen seed = .ok sk

/-- A generator with a key in reserve for the long enough seeds that give another one none. -/
def KeyGenerator.withReserve (gen : KeyGenerator) (reserve : SecretKey) : KeyGenerator :=
  fun seed =>
    if seed.length < 32 then .error .badEncoding
    else
      match gen seed with
      | .ok sk => .ok sk
      | .error _ => .ok reserve

theorem KeyGenerator.total_withReserve (gen : KeyGenerator) (reserve : SecretKey) :
    (gen.withReserve reserve).Total := by
  intro seed hlong
  rw [withReserve, if_neg (Nat.not_lt.2 hlong)]
  cases gen seed with
  | ok sk => exact ⟨sk, rfl⟩
  | error e => exact ⟨reserve, rfl⟩

theorem Mnemonic.length_seed (m : Mnemonic) : m.seed.length = 64 :=
  length_pbkdf2 sized_sha512 ..

namespace SecretKey

theorem ofBytes_toBytes (sk : SecretKey) : ofBytes sk.toBytes = .ok sk := by
  have hfits : sk.value < 256 ^ 32 := Nat.lt_trans sk.lt (by decide)
  have hnumber : sk.toBytes.toNat = sk.value := natOfBytes_bytesOfNat hfits
  simp [ofBytes, ofNat?, hnumber, sk.pos, sk.lt]

variable {gen : KeyGenerator} (htotal : gen.Total)

include htotal

theorem exists_child (sk : SecretKey) (index : UInt32) :
    ∃ child, sk.child index gen = .ok child := by
  obtain ⟨key⟩ := nonempty_lamportKey sk index
  rw [child_eq key]
  exact htotal key.seed.toList key.seed.length_eq.ge

theorem exists_descendant (sk : SecretKey) (path : List UInt32) :
    ∃ last, sk.descendant path gen = .ok last :=
  exists_foldlM (fun sk index _ => exists_child htotal sk index) sk

theorem exists_ofMnemonic {text : String} {m : Mnemonic} (hread : Mnemonic.parse text = .ok m) :
    ∃ master, ofMnemonic text gen = .ok master := by
  obtain ⟨master, hdrawn⟩ := htotal m.seed (by rw [m.length_seed]; decide)
  exact ⟨master, bind_eq_ok.2 ⟨m, hread, hdrawn⟩⟩

theorem farmerOfMnemonic_eq_error_iff {text : String} {e : KeyError} :
    farmerOfMnemonic text gen = .error e ↔ ofMnemonic text gen = .error e := by
  unfold farmerOfMnemonic
  cases hmaster : ofMnemonic text gen with
  | error e' => rfl
  | ok sk =>
    obtain ⟨last, hderived⟩ := exists_descendant htotal sk [purpose, chain, farmerPath, 0]
    simp [bind, Except.bind, farmer, hderived]

end SecretKey

end PlotMiner.Keys
