import PlotMiner.Bytes
import PlotMiner.Bytes.Reading
import PlotMiner.Chain.Challenge
import PlotMiner.Chain.Pledge
import PlotMiner.Chain.ProofPack
import PlotMiner.Chain.VdfProof
import PlotMiner.Config
import PlotMiner.Consensus.Difficulty
import PlotMiner.Consensus.DurationFixes
import PlotMiner.Consensus.Quality
import PlotMiner.Consensus.Selection
import PlotMiner.Decimal.Binary64
import PlotMiner.Decimal.Shortest
import PlotMiner.Failure
import PlotMiner.Files.Path
import PlotMiner.Files.Tree
import PlotMiner.Hash.Keyed
import PlotMiner.Hash.Sha256
import PlotMiner.Hash.Sha512
import PlotMiner.Json.Decode
import PlotMiner.Json.Document
import PlotMiner.Json.Literal
import PlotMiner.Json.Printer
import PlotMiner.Json.Record
import PlotMiner.Json.Token
import PlotMiner.Json.Value
import PlotMiner.Keys.Curve
import PlotMiner.Keys.Field
import PlotMiner.Keys.Mnemonic
import PlotMiner.Keys.PlotKey
import PlotMiner.Keys.Secret
import PlotMiner.Keys.WordList
import PlotMiner.Mining.CallLog
import PlotMiner.Mining.Collaborators
import PlotMiner.Mining.Context
import PlotMiner.Mining.Launch
import PlotMiner.Mining.Miner
import PlotMiner.Mining.Rehearsal
import PlotMiner.Mining.Site
import PlotMiner.Node.Client
import PlotMiner.Node.Credentials
import PlotMiner.Node.Query
import PlotMiner.Plot.Catalog
import PlotMiner.Plot.Commitment
import PlotMiner.Plot.Discovery
import PlotMiner.Plot.Filter
import PlotMiner.Plot.Memo
import PlotMiner.Proofs.Bytes
import PlotMiner.Proofs.Chain.Codec
import PlotMiner.Proofs.Config.Saved
import PlotMiner.Proofs.Consensus.Adjustment
import PlotMiner.Proofs.Consensus.Choice
import PlotMiner.Proofs.Consensus.Iterations
import PlotMiner.Proofs.Consensus.Offsets
import PlotMiner.Proofs.Consensus.Space
import PlotMiner.Proofs.Decimal.Rounding
import PlotMiner.Proofs.Except
import PlotMiner.Proofs.Files.Path
import PlotMiner.Proofs.Files.Tree
import PlotMiner.Proofs.Hash.Keyed
import PlotMiner.Proofs.Json.Acceptance
import PlotMiner.Proofs.Json.Alike
import PlotMiner.Proofs.Json.Document
import PlotMiner.Proofs.Json.Fields
import PlotMiner.Proofs.Json.Literal
import PlotMiner.Proofs.Json.ReadBack
import PlotMiner.Proofs.Json.Record
import PlotMiner.Proofs.Json.Rendering
import PlotMiner.Proofs.Json.RoundTrip
import PlotMiner.Proofs.Json.Shows
import PlotMiner.Proofs.Json.Truncation
import PlotMiner.Proofs.Keys.Derivation
import PlotMiner.Proofs.Keys.Descent
import PlotMiner.Proofs.Keys.Farmers
import PlotMiner.Proofs.Keys.Lamport
import PlotMiner.Proofs.Lookup
import PlotMiner.Proofs.Mining.Atomicity
import PlotMiner.Proofs.Mining.Decision
import PlotMiner.Proofs.Mining.Focus
import PlotMiner.Proofs.Mining.Foundation
import PlotMiner.Proofs.Mining.Incident
import PlotMiner.Proofs.Mining.Overflow
import PlotMiner.Proofs.Mining.Ownership
import PlotMiner.Proofs.Mining.Provenance
import PlotMiner.Proofs.Mining.Revocation
import PlotMiner.Proofs.Mining.Round
import PlotMiner.Proofs.Mining.Search
import PlotMiner.Proofs.Mining.Submission
import PlotMiner.Proofs.Mining.Timeout
import PlotMiner.Proofs.Mining.Transcript
import PlotMiner.Proofs.Mining.Transition
import PlotMiner.Proofs.Node.Login
import PlotMiner.Proofs.Node.Reply
import PlotMiner.Proofs.Node.Submission
import PlotMiner.Proofs.Plot.Discovery
import PlotMiner.Proofs.Plot.Filter
import PlotMiner.Proofs.Plot.Holdings
import PlotMiner.Proofs.Plot.Memo
import PlotMiner.Proofs.Plot.SizeClass
import PlotMiner.Proofs.Text.Elapsed
import PlotMiner.Proofs.Text.Hex
import PlotMiner.Proofs.Text.Strip
import PlotMiner.Proofs.Timelord.Address
import PlotMiner.Proofs.Timelord.Body
import PlotMiner.Proofs.Timelord.Cache
import PlotMiner.Proofs.Timelord.CacheLog
import PlotMiner.Proofs.Timelord.Calls
import PlotMiner.Proofs.Timelord.Chronicle
import PlotMiner.Proofs.Timelord.Enrollment
import PlotMiner.Proofs.Timelord.Handover
import PlotMiner.Proofs.Timelord.Healing
import PlotMiner.Proofs.Timelord.Hearing
import PlotMiner.Proofs.Timelord.Idleness
import PlotMiner.Proofs.Timelord.Inflow
import PlotMiner.Proofs.Timelord.Lifecycle
import PlotMiner.Proofs.Timelord.Meaning
import PlotMiner.Proofs.Timelord.Passage
import PlotMiner.Proofs.Timelord.Receipt
import PlotMiner.Proofs.Timelord.Roster
import PlotMiner.Proofs.Timelord.RoundTrip
import PlotMiner.Proofs.Timelord.Shutdown
import PlotMiner.Proofs.Timelord.Spelling
import PlotMiner.Proofs.Timelord.Stream
import PlotMiner.Proofs.Timelord.Upkeep
import PlotMiner.Text.Decompose
import PlotMiner.Text.Elapsed
import PlotMiner.Text.Hex
import PlotMiner.Text.Quoted
import PlotMiner.Text.Utf8
import PlotMiner.Timelord.Endpoint
import PlotMiner.Timelord.Fleet
import PlotMiner.Timelord.Frame
import PlotMiner.Timelord.Link
import PlotMiner.Timelord.Message
import PlotMiner.Timelord.MessageType
import PlotMiner.Timelord.ProofCache
import PlotMiner.Timelord.Schedule
