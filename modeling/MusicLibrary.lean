import MusicLibrary.Change.Channel
import MusicLibrary.Main
import MusicLibrary.Proofs.Sync.Baseline
import MusicLibrary.Proofs.PersistentId
import MusicLibrary.Proofs.Store.PlaylistChange
import MusicLibrary.Proofs.Store.Forest
import MusicLibrary.Proofs.Store.ParentFolder
import MusicLibrary.Proofs.Text.Base64
import MusicLibrary.Proofs.Text.Utf16
import MusicLibrary.Proofs.Smart.Payload
import MusicLibrary.Proofs.Smart.InfoRecord
import MusicLibrary.Proofs.Smart.CriteriaRecord
import MusicLibrary.Proofs.Smart.RoundTrip
import MusicLibrary.Proofs.Merge.Compact
import MusicLibrary.Proofs.Merge.Patch
import MusicLibrary.Proofs.Merge.Renaming
import MusicLibrary.Proofs.Text.Numeral
import MusicLibrary.Proofs.Merge.ThreeWay
import MusicLibrary.Proofs.Query.Leaf
import MusicLibrary.Proofs.Query.Tree
import MusicLibrary.Proofs.Query.Answer
import MusicLibrary.Proofs.Query.SmartTracks
import MusicLibrary.Proofs.Smart.Readable
import MusicLibrary.Proofs.Smart.StoredForm
import MusicLibrary.Proofs.Query.Arrangement
import MusicLibrary.Proofs.Query.Thinning
import MusicLibrary.Proofs.Query.StoredMeaning
import MusicLibrary.Proofs.Merge.Context
import MusicLibrary.Proofs.Merge.Distinct
import MusicLibrary.Proofs.Merge.Placement
import MusicLibrary.Proofs.Merge.DisjointEdits
import MusicLibrary.Proofs.Merge.SameEdit
import MusicLibrary.Proofs.Json.Number
import MusicLibrary.Proofs.Json.Token
import MusicLibrary.Proofs.Playlist.SameEdit
import MusicLibrary.Proofs.Json.RoundTrip
import MusicLibrary.Proofs.FieldType
import MusicLibrary.Proofs.Record.Track
import MusicLibrary.Proofs.Sync.TrackBaseline
import MusicLibrary.Proofs.Track.MergePolicy
import MusicLibrary.Proofs.Sync.TrackRun
import MusicLibrary.Proofs.Sync.RowOfRecords
import MusicLibrary.Proofs.Sync.Counters
import MusicLibrary.Proofs.Sync.Stream
import MusicLibrary.Proofs.Sync.DeletedLocally
import MusicLibrary.Proofs.Sync.Settled
import MusicLibrary.Proofs.Sync.Pruning
import MusicLibrary.Proofs.Sync.SecondPass
import MusicLibrary.Proofs.Record.Playlist
import MusicLibrary.Proofs.Store.MembershipChange
import MusicLibrary.Proofs.Store.StoredRows
import MusicLibrary.Proofs.Sync.SnapshotRecords
import MusicLibrary.Proofs.Sync.Created
import MusicLibrary.Proofs.Sync.PlaylistMirror
import MusicLibrary.Proofs.Store.EditSteps
import MusicLibrary.Proofs.Sync.PruneSteps
import MusicLibrary.Proofs.Store.Below
import MusicLibrary.Proofs.Sync.TrackPruning
import MusicLibrary.Proofs.Store.SameTables
import MusicLibrary.Proofs.Sync.FolderPruning
import MusicLibrary.Proofs.Sync.Prefix
import MusicLibrary.Proofs.Sync.ExactPruning
import MusicLibrary.Proofs.Sync.OtherEntries
import MusicLibrary.Proofs.Sync.TrackOrder
import MusicLibrary.Proofs.Json.Indented
import MusicLibrary.Proofs.Json.Plain
import MusicLibrary.Proofs.Json.Fields
import MusicLibrary.Proofs.Smart.Names
import MusicLibrary.Proofs.Smart.JsonForm
import MusicLibrary.Proofs.Smart.JsonText
import MusicLibrary.Proofs.Record.Snapshot
import MusicLibrary.Proofs.Sync.Bookkeeping
import MusicLibrary.Proofs.Store.ListAct
import MusicLibrary.Proofs.Store.ListModel
import MusicLibrary.Proofs.Store.ListHistory
import MusicLibrary.Proofs.Smart.Framing
import MusicLibrary.Proofs.Smart.Watched
import MusicLibrary.Proofs.Smart.Extent
import MusicLibrary.Proofs.Smart.Settling
import MusicLibrary.Proofs.Smart.FirstStoring
import MusicLibrary.Proofs.Sync.SmartRewriting
import MusicLibrary.Proofs.Query.Negation
import MusicLibrary.Proofs.Query.TextSearch
import MusicLibrary.Proofs.Query.Wording
import MusicLibrary.Proofs.Query.Limit
import MusicLibrary.Proofs.Store.Climb
import MusicLibrary.Proofs.Playlist.MergeRule
import MusicLibrary.Proofs.Track.Update
import MusicLibrary.Proofs.Track.SortKeys
import MusicLibrary.Proofs.Text.Trim
import MusicLibrary.Proofs.SortKey.Grammar
import MusicLibrary.Proofs.SortKey.Featured
import MusicLibrary.Proofs.SortKey.Again
import MusicLibrary.Proofs.Track.SortKeysAgain
import MusicLibrary.Proofs.Store.AuditTrail
import MusicLibrary.Proofs.PersistentId.Forms
import MusicLibrary.Proofs.Playlist.SystemKinds
import MusicLibrary.Proofs.Query.JoinOrder
import MusicLibrary.Proofs.Track.CounterRange
