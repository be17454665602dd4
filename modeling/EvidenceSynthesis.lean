import EvidenceSynthesis.CommandLine.World
import EvidenceSynthesis.Dataset.Extraction
import EvidenceSynthesis.Logs.Rotation
import EvidenceSynthesis.Main
import EvidenceSynthesis.Model.Corpus
import EvidenceSynthesis.Network.Address
import EvidenceSynthesis.Server.Connection
import EvidenceSynthesis.Settings.SearchSettings
import EvidenceSynthesis.Settings.Timeout
import EvidenceSynthesis.Proofs.Json.Sameness
import EvidenceSynthesis.Proofs.Search.PoolCounts
import EvidenceSynthesis.Proofs.Search.Transcript
import EvidenceSynthesis.Proofs.Search.Lead
import EvidenceSynthesis.Proofs.Search.Selection
import EvidenceSynthesis.Proofs.Json.Nesting
import EvidenceSynthesis.Proofs.Json.RoundTrip
import EvidenceSynthesis.Proofs.Server.Isolation
import EvidenceSynthesis.Proofs.Text.Utf8
import EvidenceSynthesis.Proofs.Json.Size
import EvidenceSynthesis.Proofs.Search.Echo
import EvidenceSynthesis.Proofs.Server.Answers
import EvidenceSynthesis.Proofs.Json.Growth
import EvidenceSynthesis.Proofs.Decimal.TextLength
import EvidenceSynthesis.Proofs.Server.Codec
import EvidenceSynthesis.Proofs.Evidence.Requests
import EvidenceSynthesis.Proofs.Server.FirstFrame
import EvidenceSynthesis.Proofs.Server.Passthrough
import EvidenceSynthesis.Proofs.Model.Weights
import EvidenceSynthesis.Proofs.Program.Walks
import EvidenceSynthesis.Proofs.Model.Favour
import EvidenceSynthesis.Proofs.Model.Sessions
import EvidenceSynthesis.Proofs.Model.CorpusSearch
import EvidenceSynthesis.Proofs.Model.StoredConfig
import EvidenceSynthesis.Proofs.Model.Reload
import EvidenceSynthesis.Proofs.Model.Numbering
import EvidenceSynthesis.Proofs.Model.SavedVocabularies
import EvidenceSynthesis.Proofs.Evidence.Matrices
import EvidenceSynthesis.Proofs.Model.Draws
import EvidenceSynthesis.Proofs.Evidence.Signatures
import EvidenceSynthesis.Proofs.Text.Pieces
import EvidenceSynthesis.Proofs.Evidence.ContextTokens
import EvidenceSynthesis.Proofs.Evidence.Qualifiers
import EvidenceSynthesis.Proofs.Evidence.Coverage
import EvidenceSynthesis.Proofs.Search.Overtaking
import EvidenceSynthesis.Proofs.Search.Ties
import EvidenceSynthesis.Proofs.Search.Climbing
import EvidenceSynthesis.Proofs.Search.Duplicates
import EvidenceSynthesis.Proofs.Evidence.RequestShape
import EvidenceSynthesis.Proofs.Random.Subsets
import EvidenceSynthesis.Proofs.Dataset.Programs
import EvidenceSynthesis.Proofs.Dataset.FullEvidence
import EvidenceSynthesis.Proofs.Dataset.Samples
import EvidenceSynthesis.Proofs.Files.LongerNames
import EvidenceSynthesis.Proofs.Logs.Rotations
import EvidenceSynthesis.Proofs.Logs.Slots
import EvidenceSynthesis.Proofs.Logs.Retention
import EvidenceSynthesis.Proofs.Logs.Interruptions
import EvidenceSynthesis.Proofs.Settings.Precedence
import EvidenceSynthesis.Proofs.Evidence.Frequencies
import EvidenceSynthesis.Proofs.Evidence.OneHot
import EvidenceSynthesis.Proofs.Program.Places
import EvidenceSynthesis.Proofs.Search.CountBounds
import EvidenceSynthesis.Proofs.CommandLine.FirstAnswer
import EvidenceSynthesis.Proofs.Decimal.Rounding
import EvidenceSynthesis.Proofs.Model.CommonTokens
