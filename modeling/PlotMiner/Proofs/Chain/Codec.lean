import PlotMiner.Chain.Challenge
import PlotMiner.Chain.Pledge
import PlotMiner.Proofs.Json.Record

/-!
# What a node reports is read back

Challenges with the time proofs that belong to them, and what there is to tell about pledges. The
names of the fields are found in what was written, and of each type the number of levels is known.
-/

namespace PlotMiner

open Json Json.Record

instance : Codec VdfProof where
  depth := 1
  legible p room h :=
    legible_object h (by simp [Distinct]) fun _ _ => by simp [Codec.legible, Codec.depth]
  decode_eq h := read_of_shows _ h fun _ hsame =>
    reads_pure VdfProof.mk _
      |>.field (hsame "challenge") |>.field (hsame "y") |>.field (hsame "proof")
      |>.field (hsame "witness_type") |>.field (hsame "iters") |>.field (hsame "duration")

instance : Codec ProofDetail where
  depth := 1
  legible d room h :=
    legible_object h (by simp [Distinct]) fun _ _ => by simp [Codec.legible, Codec.depth]
  decode_eq h := read_of_shows _ h fun _ hsame =>
    reads_pure ProofDetail.mk _
      |>.field (hsame "y") |>.field (hsame "proof") |>.field (hsame "witness_type")
      |>.field (hsame "iters") |>.field (hsame "duration")

/-- The time proofs are objects in an array of the challenge. -/
instance : Codec Challenge where
  depth := 3
  legible c room h :=
    legible_object h (by simp [Distinct]) fun _ h => by simp [Codec.legible, Codec.depth, h]
  decode_eq h := read_of_shows _ h fun _ hsame =>
    reads_pure Challenge.mk _
      |>.field (hsame "challenge") |>.field (hsame "difficulty") |>.field (hsame "prev_block_hash")
      |>.field (hsame "prev_block_height") |>.field (hsame "prev_vdf_iters")
      |>.field (hsame "prev_vdf_duration") |>.field (hsame "target_height")
      |>.field (hsame "target_duration") |>.field (hsame "filter_bits")
      |>.field (hsame "base_iters") |>.fieldD (hsame "vdf_proofs") []

instance : Codec PledgeParams where
  depth := 1
  legible p room h :=
    legible_object h (by simp [Distinct]) fun _ _ => by simp [Codec.legible, Codec.depth]
  decode_eq h := read_of_shows _ h fun _ hsame =>
    reads_pure PledgeParams.mk _
      |>.field (hsame "netCapacityTB") |>.field (hsame "calculatedOnHeight")
      |>.field (hsame "supplied")

instance : Codec BindRecord where
  depth := 1
  legible r room h :=
    legible_object h (by simp [Distinct]) fun _ _ => by simp [Codec.legible, Codec.depth]
  decode_eq h := read_of_shows _ h fun _ hsame =>
    reads_pure BindRecord.mk _
      |>.field (hsame "txid") |>.field (hsame "address") |>.field (hsame "plotterId")
      |>.fieldD (hsame "blockhash") none |>.fieldD (hsame "blockheight") 0
      |>.field (hsame "active") |>.fieldD (hsame "valid") false

instance : Codec MiningRequirement where
  depth := 1
  legible r room h :=
    legible_object h (by simp [Distinct]) fun _ _ => by simp [Codec.legible, Codec.depth]
  decode_eq h := read_of_shows _ h fun _ hsame =>
    reads_pure MiningRequirement.mk _
      |>.field (hsame "address") |>.field (hsame "require") |>.field (hsame "mined")
      |>.field (hsame "count") |>.field (hsame "burned") |>.field (hsame "supplied")
      |>.field (hsame "accumulate") |>.field (hsame "height") |>.fieldD (hsame "calc-height") 0

end PlotMiner
