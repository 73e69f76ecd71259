import PlotMiner.Files.Path
import PlotMiner.Plot.Commitment

/-!
# Plot memos

A plot carries a memo: what it commits to, the public key of the farmer it belongs to, and the
secret key it was made with. The memo's length tells which of the two kinds of commitment it holds.
It goes along with every answer that the plot gives to a challenge.
-/

namespace PlotMiner

structure PlotMemo where
  target : PoolTarget
  farmerKey : Bytes48
  localMasterKey : Bytes32
deriving DecidableEq, Inhabited

namespace PlotMemo

/-- The memo of a plot with a pool contract has 112 bytes, that of a plot with a pool key 128. -/
def ofBytes? (bytes : List UInt8) : Option PlotMemo :=
  if bytes.length = 112 then
    some ⟨.contract (.fit 32 (bytes.take 32)), .fit 48 ((bytes.drop 32).take 48),
      .fit 32 (bytes.drop 80)⟩
  else if bytes.length = 128 then
    some ⟨.publicKey (.fit 48 (bytes.take 48)), .fit 48 ((bytes.drop 48).take 48),
      .fit 32 (bytes.drop 96)⟩
  else none

def lengthMessage (length : Nat) : String :=
  s!"Invalid memo length. Length must be 112 or 128, found {length}"

def toBytes (m : PlotMemo) : List UInt8 :=
  m.target.bytes ++ m.farmerKey.toList ++ m.localMasterKey.toList

/-- A memo as it is shown, without the secret key. -/
def describe (m : PlotMemo) : String :=
  "\x7b \"pool_key_or_hash\": \"" ++ m.target.toHex ++ "\", \"farmer_public_key\": \"" ++
    m.farmerKey.toHex ++ "\" \x7d"

end PlotMemo

structure Candidate where
  path : Path
  plotId : Bytes32
  /-- The place among the answers of the same plot. -/
  index : Nat
  k : UInt8
  quality : Blob
  memo : PlotMemo
deriving DecidableEq

structure SpaceProof where
  challenge : Bytes32
  k : UInt8
  plotId : Bytes32
  target : PoolTarget
  localKey : Bytes48
  proof : Blob
  mixed : Bytes32
  iters : UInt64
deriving DecidableEq, Inhabited

end PlotMiner
