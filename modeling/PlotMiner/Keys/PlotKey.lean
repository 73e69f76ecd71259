import PlotMiner.Keys.Mnemonic
import PlotMiner.Plot.Commitment

/-!
# Keys of plots

The public key of a plot is the sum of its local key and the farmer's key. A plot that commits to a
pool contract adds a third key, the taproot key, which is drawn from the other two.
-/

namespace PlotMiner.Keys

/-- The taproot key of two public keys. -/
def taprootKey (localKey farmerKey : PublicKey) (gen : KeyGenerator := SecretKey.ofSeed) :
    Except KeyError SecretKey := do
  let sum ← Point.aggregate [localKey, farmerKey]
  let message := sum.toBytes.toList ++ localKey.toBytes.toList ++ farmerKey.toBytes.toList
  gen (Sha256.hash message).toList

def plotKey (localKey farmerKey : PublicKey) (type : PlotType)
    (gen : KeyGenerator := SecretKey.ofSeed) : Except KeyError PublicKey :=
  match type with
  | .og => Point.aggregate [localKey, farmerKey]
  | .pooled => do
    let taproot ← taprootKey localKey farmerKey gen
    Point.aggregate [localKey, farmerKey, taproot.publicKey]

/-- What the miner needs to know about keys in order to check to whom a plot belongs. -/
structure KeyEngine (ε : Type) where
  localKey : Bytes32 → Except ε Bytes48
  plotId : Bytes48 → Bytes48 → PoolTarget → Except ε Bytes32

def KeyEngine.steady {ε : Type} (localKey : Except ε Bytes48) (plotId : Except ε Bytes32) :
    KeyEngine ε :=
  ⟨fun _ => localKey, fun _ _ _ => plotId⟩

def KeyEngine.mapError {ε δ : Type} (f : ε → δ) (engine : KeyEngine ε) : KeyEngine δ where
  localKey sk := (engine.localKey sk).mapError f
  plotId localKey farmerKey target := (engine.plotId localKey farmerKey target).mapError f

/-- The local public key that belongs to the secret key in a memo. -/
def localPublicKey (masterKey : Bytes32) (gen : KeyGenerator := SecretKey.ofSeed) :
    Except KeyError Bytes48 := do
  let master ← SecretKey.ofBytes masterKey
  let sk ← master.plotLocal gen
  return sk.publicKey.toBytes

def plotIdOfKeys (localKey farmerKey : Bytes48) (target : PoolTarget)
    (gen : KeyGenerator := SecretKey.ofSeed) : Except KeyError Bytes32 := do
  let localPoint ← Point.ofBytes localKey
  let farmerPoint ← Point.ofBytes farmerKey
  let key ← plotKey localPoint farmerPoint target.plotType gen
  return PlotMiner.plotId target key.toBytes

def blsEngine (gen : KeyGenerator := SecretKey.ofSeed) : KeyEngine KeyError where
  localKey masterKey := localPublicKey masterKey gen
  plotId localKey farmerKey target := plotIdOfKeys localKey farmerKey target gen

/-- The secret keys of farmers, each with its public key. -/
abbrev FarmerKeys := List (Bytes48 × Bytes32)

namespace FarmerKeys

/-- Adds a key, in place of the one with the same public key if there is one. -/
def insert (keys : FarmerKeys) (publicKey : Bytes48) (secretKey : Bytes32) : FarmerKeys :=
  keys.filter (·.1 ≠ publicKey) ++ [(publicKey, secretKey)]

def find? (keys : FarmerKeys) (publicKey : Bytes48) : Option Bytes32 := keys.lookup publicKey

def addSeed (keys : FarmerKeys) (seed : String) (gen : KeyGenerator := SecretKey.ofSeed) :
    Except KeyError FarmerKeys := do
  let sk ← SecretKey.farmerOfMnemonic seed gen
  return keys.insert sk.publicKey.toBytes sk.toBytes

def ofSeeds (seeds : List String) (gen : KeyGenerator := SecretKey.ofSeed) :
    Except KeyError FarmerKeys :=
  seeds.foldlM (fun keys seed => keys.addSeed seed gen) []

end FarmerKeys

end PlotMiner.Keys
