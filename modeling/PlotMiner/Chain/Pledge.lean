import PlotMiner.Json.Record

/-!
# Pledges

What a node tells about deposits: the terms a deposit can be locked for, the capacity of the network
they are measured against, the transactions that bind a plotter to an address, and what an address
has to pledge.
-/

namespace PlotMiner

open Json

/-- How long a deposit is locked. -/
inductive DepositTerm where
  | noTerm
  | term1
  | term2
  | term3
deriving DecidableEq, Inhabited

namespace DepositTerm

def name : DepositTerm → String
  | .noTerm => "noterm"
  | .term1 => "term1"
  | .term2 => "term2"
  | .term3 => "term3"

def all : List DepositTerm := [.noTerm, .term1, .term2, .term3]

instance : Decode DepositTerm := ⟨readVariant (all.map fun t => (t.name, t))⟩
instance : Encode DepositTerm := ⟨fun t => .string t.name⟩

end DepositTerm

structure PledgeParams where
  netCapacityTB : UInt64
  calculatedOnHeight : UInt32
  supplied : UInt64
deriving DecidableEq, Inhabited

instance : Decode PledgeParams :=
  ⟨Record.read "PledgeParams" <|
    Record.pure PledgeParams.mk
      |>.field "netCapacityTB" |>.field "calculatedOnHeight" |>.field "supplied"⟩

instance : Encode PledgeParams :=
  ⟨fun p => .object [("netCapacityTB", encode p.netCapacityTB),
    ("calculatedOnHeight", encode p.calculatedOnHeight), ("supplied", encode p.supplied)]⟩

/-- A transaction that binds a plotter to an address. -/
structure BindRecord where
  txId : Bytes32
  address : String
  farmerPk : String
  /-- Absent as long as the transaction is in no block. -/
  blockHash : Option Bytes32
  blockHeight : UInt32
  active : Bool
  valid : Bool
deriving DecidableEq, Inhabited

instance : Decode BindRecord :=
  ⟨Record.read "BindRecord" <|
    Record.pure BindRecord.mk
      |>.field "txid" |>.field "address" |>.field "plotterId" |>.fieldD "blockhash" none
      |>.fieldD "blockheight" 0 |>.field "active" |>.fieldD "valid" false⟩

instance : Encode BindRecord :=
  ⟨fun r => .object [("txid", encode r.txId), ("address", encode r.address),
    ("plotterId", encode r.farmerPk), ("blockhash", encode r.blockHash),
    ("blockheight", encode r.blockHeight), ("active", encode r.active),
    ("valid", encode r.valid)]⟩

/-- What an address has to pledge to mine. -/
structure MiningRequirement where
  address : String
  required : Int64
  minedCount : UInt32
  totalCount : UInt32
  burned : Int64
  supplied : Int64
  accumulate : Int64
  height : UInt32
  calcHeight : UInt32
deriving DecidableEq, Inhabited

instance : Decode MiningRequirement :=
  ⟨Record.read "MiningRequirement" <|
    Record.pure MiningRequirement.mk
      |>.field "address" |>.field "require" |>.field "mined" |>.field "count" |>.field "burned"
      |>.field "supplied" |>.field "accumulate" |>.field "height" |>.fieldD "calc-height" 0⟩

instance : Encode MiningRequirement :=
  ⟨fun r => .object [("address", encode r.address), ("require", encode r.required),
    ("mined", encode r.minedCount), ("count", encode r.totalCount), ("burned", encode r.burned),
    ("supplied", encode r.supplied), ("accumulate", encode r.accumulate),
    ("height", encode r.height), ("calc-height", encode r.calcHeight)]⟩

structure RequirementReply where
  summary : MiningRequirement

instance : Decode RequirementReply :=
  ⟨Record.read "MiningRequirementReply" <|
    Record.pure RequirementReply.mk |>.field "summary"⟩

end PlotMiner
