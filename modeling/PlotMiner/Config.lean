import PlotMiner.Files.Path
import PlotMiner.Json.Record
import PlotMiner.Text.Utf8

/-!
# The configuration of a miner

A configuration names the address of the rewards, the mnemonics of the farmers, the directories with
plots, the node and the timelords. Everything but the reward and the mnemonics has a default. A
configuration file is a JSON text; what it says is valid when the node, the reward and at least one
mnemonic are not blank.
-/

namespace PlotMiner

open Json

instance : Decode Path := ⟨fun s => return ⟨← decodeStringAs "path string" s⟩⟩
instance : Encode Path := ⟨fun p => .string p.text⟩

/-- Mnemonics are given as one text or as a list of texts. -/
inductive Seeds where
  | single (seed : String)
  | many (seeds : List String)
deriving DecidableEq

namespace Seeds

instance : Inhabited Seeds := ⟨many []⟩

/-- The mnemonics that are not blank. -/
def toList (s : Seeds) : List String :=
  let all :=
    match s with
    | single seed => [seed]
    | many seeds => seeds
  all.filter fun seed => !Text.isBlankText seed

instance : Decode Seeds :=
  ⟨fun s => do
    let v ← Source.whole s
    match decodeStringAs "a string" v, (decode v : Except DecodeError (List String)) with
    | .ok seed, _ => return single seed
    | _, .ok seeds => return many seeds
    | _, _ => throw (.noForm "Seeds")⟩

instance : Encode Seeds :=
  ⟨fun
    | single seed => encode seed
    | many seeds => encode seeds⟩

end Seeds

structure RpcConfig where
  host : String
  user : String
  password : String
  wallet : String
deriving DecidableEq

namespace RpcConfig

def defaultHost : String := "http://127.0.0.1:18732"

instance : Inhabited RpcConfig := ⟨⟨defaultHost, "", "", ""⟩⟩

instance : Decode RpcConfig :=
  ⟨Record.read "RpcConfig" <|
    Record.pure RpcConfig.mk
      |>.fieldD "host" defaultHost |>.fieldD "user" "" |>.fieldD "password" ""
      |>.fieldD "wallet" ""⟩

instance : Encode RpcConfig :=
  ⟨fun c => .object [("host", encode c.host), ("user", encode c.user),
    ("password", encode c.password), ("wallet", encode c.wallet)]⟩

end RpcConfig

structure MinerConfig where
  reward : String
  seed : Seeds
  testnet : Bool
  noProxy : Bool
  plotPath : List Path
  rpc : RpcConfig
  timelords : List String
  /-- The size classes of plots to mine with; all of the network's if there are none. -/
  allowedPlotK : List UInt8
deriving DecidableEq

inductive ConfigError where
  | file (error : FileError)
  | notJson
  | decode (error : DecodeError)
  | blankField (name : String)

namespace ConfigError

def kind : ConfigError → FailureKind
  | file e => e.kind
  | notJson => .invalidData
  | decode _ => .invalidData
  | blankField _ => .invalidInput

/-- The text of an error. That of a decoding error is shown between quotes, as the beginning of a
record of the error and its place. -/
def message : ConfigError → String
  | file e => e.message
  | notJson => "syntax"
  | decode e => s!"Error({Text.quote e.message}"
  | blankField name => s!"field `{name}` is empty"

end ConfigError

def lowestK : UInt8 := 32

def lowestTestK : UInt8 := 25

def highestK : UInt8 := 50

def kRange (low : UInt8) : List UInt8 :=
  (List.range (highestK.toNat + 1 - low.toNat)).map fun i => low + UInt8.ofNat i

def defaultDataDir (home : Option Path) (testnet : Bool) : Option Path :=
  home.map fun h =>
    let dir := h.join ⟨".depinc"⟩
    if testnet then dir.join ⟨"testnet3"⟩ else dir

namespace MinerConfig

instance : Inhabited MinerConfig := ⟨⟨"", default, true, true, [], default, [], []⟩⟩

instance : Decode MinerConfig :=
  ⟨Record.read "MinerConfig" <|
    Record.pure MinerConfig.mk
      |>.fieldD "reward" "" |>.fieldD "seed" default |>.fieldD "testnet" true
      |>.fieldD "noproxy" true |>.fieldD "plotPath" [] |>.fieldD "rpc" default
      |>.fieldD "timelords" [] |>.fieldD "allowedPlotK" []⟩

instance : Encode MinerConfig :=
  ⟨fun c => .object [("reward", encode c.reward), ("seed", encode c.seed),
    ("testnet", encode c.testnet), ("noproxy", encode c.noProxy),
    ("plotPath", encode c.plotPath), ("rpc", encode c.rpc), ("timelords", encode c.timelords),
    ("allowedPlotK", encode c.allowedPlotK)]⟩

/-- Whether everything is there that mining needs. -/
def validate (c : MinerConfig) : Except ConfigError Unit :=
  if Text.isBlankText c.rpc.host then .error (.blankField "rpc.host")
  else if Text.isBlankText c.reward then .error (.blankField "reward")
  else if c.seed.toList.isEmpty then .error (.blankField "seed")
  else .ok ()

/-- How many leading zero bits let a plot take part in a round. -/
def filterBits (c : MinerConfig) : UInt8 := if c.testnet then 3 else 9

def lowestAllowedK (c : MinerConfig) : UInt8 := if c.testnet then lowestTestK else lowestK

/-- The size classes of plots to mine with: those of the network, or the configured ones among
them. -/
def allowedKs (c : MinerConfig) : List UInt8 :=
  if c.allowedPlotK.isEmpty then kRange c.lowestAllowedK
  else c.allowedPlotK.filter fun k => c.lowestAllowedK ≤ k && k ≤ highestK

/-- The cookie file of the node: the given one, or else the one in the data directory. -/
def cookiePath (c : MinerConfig) (home dataDir cookie : Option Path) : Option Path :=
  match cookie with
  | some p => some p
  | none => (dataDir.or (defaultDataDir home c.testnet)).map (·.join ⟨".cookie"⟩)

def toText (c : MinerConfig) : String := (encode c).pretty

def ofText (cs : List Char) : Except ConfigError MinerConfig :=
  match Document.parse? cs with
  | none => .error .notJson
  | some d => (decode (Excerpt.mk maxDepth d)).mapError .decode

/-- Reads and checks a configuration file. -/
def load (contents : Option (List UInt8)) : Except ConfigError MinerConfig := do
  let cs ← (readText contents).mapError .file
  let c ← ofText cs
  c.validate
  return c

end MinerConfig

end PlotMiner
