import Bertha.BigEndian
import Bertha.IntervalList
import Bertha.BinarySearch
import Bertha.OrderedStore
import Bertha.Timeline
import Bertha.Ring
import Bertha.Pipeline
import Bertha.PipelineReports
import Bertha.PipelineLookahead
import Bertha.Conversion
import Bertha.Rlp
import Bertha.RlpItems
import Bertha.BlockRanges
import Bertha.RangeSets
import Bertha.RangeArithmetic
import Bertha.BlockTypes
import Bertha.BlockKeys
import Bertha.ProtoBlock
import Bertha.RlpFields
import Bertha.RlpReencoding
import Bertha.TransactionRlp
import Bertha.Headers
import Bertha.HeaderRlp
import Bertha.HexConvert
import Bertha.HexGrammar
import Bertha.JsonStructs
import Bertha.TransactionJson
import Bertha.Loops
import Bertha.GenesisUnits
import Bertha.GenesisMetadata
import Bertha.GenesisWalk
import Bertha.GenesisBlocks
import Bertha.TransactionItems
import Bertha.GenesisConversion
import Bertha.SliceReading
import Bertha.SliceCalls
import Bertha.BlockParsing
import Bertha.ParserOpening
import Bertha.ParserErrors
import Bertha.BlockSubscription
import Bertha.LiveSync
import Bertha.GethConvert
import Bertha.GethBlocks
import Bertha.SortedEntries
import Bertha.Verifiers
import Bertha.VerifyCount
import Bertha.ReceiptEncoding
import Bertha.TrieLeaves
import Bertha.LogsBloom
import Bertha.EraTransactions
import Bertha.EraBlocks
import Bertha.BlockDb
import Bertha.BlockDbContents
import Bertha.BlockDbInvariant
import Bertha.BlockIteration
import Bertha.Purge
import Bertha.GoBlockDb
import Bertha.HashHistory
import Bertha.RulesStore
import Bertha.RulesHistory
import Bertha.RulesUpdates
import Bertha.Corrections
import Bertha.ChainAdapter
import Bertha.Snapshots
import Bertha.SnapshotRetention
import Bertha.SnapshotFailures
import Bertha.AbiDecoding
import Bertha.Checks
import Bertha.ReceiptChecks
import Bertha.Replay
import Bertha.ReplayPipeline
import Bertha.ReplayIssues
import Bertha.ReplayLinks
import Bertha.ReplayFrame
import Bertha.ArchiveVerifier
import Bertha.ArchiveInputs
import Bertha.ArchiveAlarms
import Bertha.RpcServer
import Bertha.Fetch
import Bertha.FetchFrame
import Bertha.FetchArithmetic
import Bertha.FetchHonest
import Bertha.FetchAvailability
import Bertha.Import
import Bertha.ImportExact
import Bertha.ImportVerify
import Bertha.BundleInsertion
import Bertha.HashChain
import Bertha.TrustedChain
import Bertha.ImportJunction
import Bertha.GenesisImport
import Bertha.Replication
import Bertha.FetchSuccess
import Bertha.Mirrors
import Bertha.CommandRuns
import Bertha.ReplayRestart
import Bertha.ReplayLookahead
