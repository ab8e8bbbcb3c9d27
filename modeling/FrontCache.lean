import FrontCache.Path
import FrontCache.Table
import FrontCache.Bytes.Hex
import FrontCache.Bytes.Md5
import FrontCache.Decimal.Shortest
import FrontCache.Json.Number
import FrontCache.Json.Value
import FrontCache.Json.Reader
import FrontCache.Text.CodeRanges
import FrontCache.Text.ExtendingMark
import FrontCache.Text.Printable
import FrontCache.Json.Mismatch
import FrontCache.Options
import FrontCache.Options.Json
import FrontCache.Fault
import FrontCache.Counters
import FrontCache.Uploads
import FrontCache.EntryCache
import FrontCache.ContentCache
import FrontCache.Store.Basic
import FrontCache.Store.Ops
import FrontCache.Volume.Basic
import FrontCache.Volume.Resolve
import FrontCache.Volume.Change
import FrontCache.Volume.Content
import FrontCache.Mount
import FrontCache.Protocol.Fields
import FrontCache.Protocol.Pure
import FrontCache.Protocol.Caches
import FrontCache.Protocol.VolumeSession
import FrontCache.Protocol.Answer
import FrontCache.Proofs.Path
import FrontCache.Proofs.Path.Text
import FrontCache.Proofs.Path.Below
import FrontCache.Proofs.Store.Nodes
import FrontCache.Proofs.Store.Tree
import FrontCache.Proofs.Cache.Agreement
import FrontCache.Proofs.Cache.Blobs
import FrontCache.Proofs.Store.Calls
import FrontCache.Proofs.Store.Folders
import FrontCache.Proofs.Volume.Program
import FrontCache.Proofs.Volume.Coherence
import FrontCache.Proofs.Volume.Resolve
import FrontCache.Proofs.Cache.Listings
import FrontCache.Proofs.Volume.Frame
import FrontCache.Proofs.Volume.Sidecars
import FrontCache.Proofs.Mount.Actions
import FrontCache.Proofs.Uploads.History
import FrontCache.Proofs.Mount.Uploads
import FrontCache.Proofs.Mount.Shape
import FrontCache.Proofs.Mount.Provisional
import FrontCache.Proofs.Mount.Evictions
import FrontCache.Proofs.Mount.ReadOnly
import FrontCache.Proofs.Store.Relocate
import FrontCache.Proofs.Store.UpClosed
import FrontCache.Proofs.Mount.FolderMoves
import FrontCache.Proofs.Store.Outcomes
import FrontCache.Proofs.Store.MoveTable
import FrontCache.Proofs.Volume.Ordinary
import FrontCache.Proofs.Volume.OrdinaryChanges
import FrontCache.Proofs.Volume.Move
import FrontCache.Proofs.Volume.FailedChanges
import FrontCache.Proofs.Volume.FullFolders
import FrontCache.Proofs.Volume.StaysOrdinary
import FrontCache.Proofs.Cache.Fetch
import FrontCache.Proofs.Volume.Listing
import FrontCache.Proofs.Volume.SelfHeal
import FrontCache.Proofs.Volume.Cost
import FrontCache.Proofs.Mount.RoundTrip
import FrontCache.Proofs.Mount.OrdinaryRuns
import FrontCache.Proofs.Mount.RootFolder
import FrontCache.Proofs.Mount.HiddenSidecars
