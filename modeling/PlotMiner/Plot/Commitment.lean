import PlotMiner.Hash.Sha256
import PlotMiner.Json.Record

/-!
# What a plot commits to

A plot is made either for a pool's public key, or for the puzzle hash of a pool contract. Its id is
the hash of that and of the public key of the plot.
-/

namespace PlotMiner

open Json

inductive PlotType where
  | og
  | pooled
deriving DecidableEq, Inhabited

namespace PlotType

def name : PlotType → String
  | .og => "OgPlot"
  | .pooled => "PooledPlot"

/-- The number that stands for a type where a node is told about it. -/
def code : PlotType → Nat
  | .og => 0
  | .pooled => 1

instance : Decode PlotType := ⟨readVariant [(og.name, og), (pooled.name, pooled)]⟩
instance : Encode PlotType := ⟨fun t => .string t.name⟩

end PlotType

/-- What a plot commits to. -/
inductive PoolTarget where
  | publicKey (key : Bytes48)
  | contract (puzzleHash : Bytes32)
deriving DecidableEq

namespace PoolTarget

instance : Inhabited PoolTarget := ⟨contract default⟩

def plotType : PoolTarget → PlotType
  | publicKey _ => .og
  | contract _ => .pooled

def bytes : PoolTarget → List UInt8
  | publicKey key => key.toList
  | contract h => h.toList

/-- The number of bytes tells a key from a hash. -/
theorem bytes_inj {t u : PoolTarget} (h : t.bytes = u.bytes) : t = u := by
  have hsame := congrArg List.length h
  cases t with
  | publicKey key =>
    cases u with
    | publicKey key' => rw [SizedBytes.ext h]
    | contract hash' => simp [bytes, SizedBytes.length_eq] at hsame
  | contract hash =>
    cases u with
    | publicKey key' => simp [bytes, SizedBytes.length_eq] at hsame
    | contract hash' => rw [SizedBytes.ext h]

def toHex (t : PoolTarget) : String := Hex.encode t.bytes

end PoolTarget

def plotId (target : PoolTarget) (plotKey : Bytes48) : Bytes32 :=
  Sha256.hash (target.bytes ++ plotKey.toList)

end PlotMiner
