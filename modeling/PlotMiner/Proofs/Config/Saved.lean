import PlotMiner.Config
import PlotMiner.Proofs.Chain.Codec
import PlotMiner.Proofs.Json.ReadBack
import PlotMiner.Proofs.Text.Utf8
import PlotMiner.Proofs.Timelord.Body

/-!
# What is saved and exchanged is read back

A configuration is read back from the file that it is saved as, and with that every type that is
exchanged or saved as JSON is read back from its texts (`json_read_back`).
-/

namespace PlotMiner

open Json Json.Record

instance : Scalar Path where
  decode_eq h := bind_eq_ok.2 ⟨_, decodeStringAs_of_shows h _, rfl⟩
  plain _ _ := ⟨rfl, trivial⟩
  ne_null _ := nofun

theorem Seeds.legible (seeds : Seeds) {room : Nat} (h : 1 ≤ room) :
    (encode seeds).Legible room := by
  cases seeds with
  | single seed => exact Codec.legible seed (Nat.zero_le _)
  | many seeds => exact Codec.legible seeds h

/-- An array is no text, so that a list of mnemonics is not taken for a single one. -/
theorem decodeStringAs_of_shows_array {S : Type} [Source S] {s : S} {items : List Value}
    (h : Shows s (.array items)) (want : String) :
    decodeStringAs want s = .error (.invalidType .array want) := by
  cases h with
  | array hview => rw [decodeStringAs, hview]; rfl

instance : Codec Seeds where
  depth := 1
  legible := Seeds.legible
  decode_eq {_ _ _ _ seeds} h := by
    obtain ⟨v, hwhole, hshown⟩ := LawfulSource.whole h (seeds.legible Nat.le.refl)
    refine bind_eq_ok.2 ⟨v, hwhole, ?_⟩
    -- a text is tried first, and a list is none
    cases seeds with
    | single seed =>
      rw [decodeStringAs_of_shows hshown]
      rfl
    | many seeds =>
      have hlist : (decode v : Except DecodeError (List String)) = .ok seeds :=
        Codec.decode_eq hshown
      rw [decodeStringAs_of_shows_array hshown, hlist]
      rfl

instance : Codec RpcConfig where
  depth := 1
  legible c room h :=
    legible_object h (by simp [Distinct]) fun _ _ => by simp [Codec.legible, Codec.depth]
  decode_eq h := read_of_shows _ h fun _ hsame =>
    reads_pure RpcConfig.mk _
      |>.fieldD (hsame "host") RpcConfig.defaultHost |>.fieldD (hsame "user") ""
      |>.fieldD (hsame "password") "" |>.fieldD (hsame "wallet") ""

instance : Codec MinerConfig where
  depth := 2
  legible c room h :=
    legible_object h (by simp [Distinct]) fun _ h => by simp [Codec.legible, Codec.depth, h]
  decode_eq h := read_of_shows _ h fun _ hsame =>
    reads_pure MinerConfig.mk _
      |>.fieldD (hsame "reward") "" |>.fieldD (hsame "seed") default
      |>.fieldD (hsame "testnet") true |>.fieldD (hsame "noproxy") true
      |>.fieldD (hsame "plotPath") [] |>.fieldD (hsame "rpc") default
      |>.fieldD (hsame "timelords") [] |>.fieldD (hsame "allowedPlotK") []

namespace MinerConfig

theorem ofText_toText (c : MinerConfig) : ofText c.toText.toList = .ok c := by
  have hback := Codec.readBack (by decide) c
  obtain ⟨⟨d, hparsed, hdecoded⟩, -⟩ := hback.read _ hback.pretty
  simp only [ofText, toText, hparsed, hdecoded]
  rfl

theorem load_saved (c : MinerConfig) :
    load (some (Text.utf8 c.toText.toList)) = c.validate.map fun _ => c := by
  have htext : readText (some (Text.utf8 c.toText.toList)) = .ok c.toText.toList := by
    rw [readText, Text.decodeUtf8?_utf8]
  rw [load, htext]
  simp only [Except.mapError, bind, Except.bind, ofText_toText]
  cases c.validate <;> rfl

end MinerConfig

/-- Everything that is exchanged or saved as JSON is read back from its texts. A configuration file
that was saved is loaded as the configuration, or refused as the configuration is. -/
theorem json_read_back :
    (∀ c : Challenge, ReadBack c) ∧
    (∀ p : VdfProof, ReadBack p) ∧
    (∀ d : ProofDetail, ReadBack d) ∧
    (∀ n : Timelord.Netspace, ReadBack n) ∧
    (∀ c : Timelord.Calc, ReadBack c) ∧
    (∀ r : Timelord.CalcReply, ReadBack r) ∧
    (∀ m : Timelord.ProofMessage, ReadBack m) ∧
    (∀ p : PledgeParams, ReadBack p) ∧
    (∀ r : BindRecord, ReadBack r) ∧
    (∀ r : MiningRequirement, ReadBack r) ∧
    (∀ c : RpcConfig, ReadBack c) ∧
    (∀ c : MinerConfig, ReadBack c) ∧
    (∀ c : MinerConfig,
      MinerConfig.load (some (Text.utf8 c.toText.toList)) = c.validate.map fun _ => c) :=
  ⟨Codec.readBack (by decide), Codec.readBack (by decide), Codec.readBack (by decide),
    Codec.readBack (by decide), Codec.readBack (by decide), Codec.readBack (by decide),
    Codec.readBack (by decide), Codec.readBack (by decide), Codec.readBack (by decide),
    Codec.readBack (by decide), Codec.readBack (by decide), Codec.readBack (by decide),
    MinerConfig.load_saved⟩

end PlotMiner
