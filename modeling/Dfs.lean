import Dfs.Library.StepRun
import Dfs.Library.Store
import Dfs.Library.CText
import Dfs.Library.ChainedIndex
import Dfs.Library.LinkedBuckets
import Dfs.Library.ProbeTable
import Dfs.Library.ProbeRuns
import Dfs.Library.ByteStream
import Dfs.Library.Layout
import Dfs.Library.RecordFile
import Dfs.Library.ItemRuns
import Dfs.Library.Rotation
import Dfs.Library.CInput
import Dfs.Library.Completion
import Dfs.Library.LockOrder
import Dfs.Library.BoundedRows
import Dfs.Library.FileSystem
import Dfs.Library.FileFootprint
import Dfs.Protocol
import Dfs.NetworkUtils
import Dfs.MessageFields
import Dfs.NameServer.FileIndex
import Dfs.NameServer.IndexAgreement
import Dfs.NameServer.HashChains
import Dfs.NameServer.SearchCache
import Dfs.NameServer.CacheTraces
import Dfs.NameServer.FileLists
import Dfs.StorageServer.Document
import Dfs.StorageServer.Parsing
import Dfs.StorageServer.State
import Dfs.StorageServer.Paths
import Dfs.StorageServer.AccessControl
import Dfs.StorageServer.FileOperations
import Dfs.StorageServer.ParserLaws
import Dfs.StorageServer.WriteSession
import Dfs.StorageServer.SessionMoves
import Dfs.StorageServer.Requests
import Dfs.StorageServer.DirectOperations
import Dfs.StorageServer.FileView
import Dfs.StorageServer.Interleaving
import Dfs.StorageServer.Transitions
import Dfs.StorageServer.SentenceLocks
import Dfs.StorageServer.CommittedWords
import Dfs.StorageServer.SessionMeaning
import Dfs.StorageServer.CommutingCommits
import Dfs.StorageServer.SharedBackup
import Dfs.StorageServer.Queries
import Dfs.StorageServer.Acknowledgements
import Dfs.StorageServer.RequestFrames
import Dfs.StorageServer.DiskFrames
import Dfs.StorageServer.ClientPort
import Dfs.StorageServer.CompleteRequests
import Dfs.StorageServer.RequestEffects
import Dfs.StorageServer.MetadataStore
import Dfs.StorageServer.Checkpoints
import Dfs.StorageServer.SavedFiles
import Dfs.StorageServer.DocumentAgreement
import Dfs.StorageServer.UndoInverse
import Dfs.StorageServer.RevertedFiles
import Dfs.StorageServer.DeletedFiles
import Dfs.StorageServer.AccessDecisions
import Dfs.StorageServer.IndexCheck
import Dfs.StorageServer.DelimiterBoundary
import Dfs.StorageServer.DelimiterPlace
import Dfs.StorageServer.BatchCommands
import Dfs.StorageServer.StoredText
import Dfs.StorageServer.AbortedSession
import Dfs.StorageServer.CacheAgreement
import Dfs.StorageServer.GrantedAccess
import Dfs.StorageServer.RevokedAccess
import Dfs.StorageServer.StreamedWords
import Dfs.StorageServer.FileStatistics
import Dfs.StorageServer.ReferenceCounts
import Dfs.StorageServer.ReferenceRuns
import Dfs.StorageServer.LockDiscipline
import Dfs.StorageServer.Routing
import Dfs.StorageServer.RecordRights
import Dfs.StorageServer.StoredContents
import Dfs.StorageServer.MetadataFile
import Dfs.NameServer.ClientHandlers
import Dfs.NameServer.ForwardedRequests
import Dfs.NameServer.Grants
import Dfs.NameServer.FileSets
import Dfs.NameServer.Registration
import Dfs.NameServer.RequestSteps
import Dfs.NameServer.CreateRaces
import Dfs.NameServer.Placement
import Dfs.NameServer.SystemMoves
import Dfs.NameServer.RoundRobin
import Dfs.NameServer.AccessRequests
import Dfs.NameServer.RequestThreads
import Dfs.NameServer.RequestIds
import Dfs.NameServer.RequestCapacity
import Dfs.NameServer.CacheCoherence
import Dfs.NameServer.Confidentiality
import Dfs.NameServer.InfoAccess
import Dfs.NameServer.LockDiscipline
import Dfs.NameServer.Routing
import Dfs.NameServer.ClientRegistry
import Dfs.NameServer.FileListing
import Dfs.NameServer.FileDetails
import Dfs.NameServer.QueryHandlers
import Dfs.NameServer.SystemRuns
import Dfs.NameServer.ContentRuns
import Dfs.NameServer.ListedFiles
import Dfs.Client.FileTransfer
import Dfs.Client.CommandParser
import Dfs.Client.WriteConversation
import Dfs.Client.Requests
import Dfs.Client.Shell
import Dfs.Client.BrokenTransfers
