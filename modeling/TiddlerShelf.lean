import TiddlerShelf.Cache.Basic
import TiddlerShelf.Cache.File
import TiddlerShelf.Collection.Basic
import TiddlerShelf.Collection.Named
import TiddlerShelf.Collection.Outline
import TiddlerShelf.Collection.SortKey
import TiddlerShelf.Config.Basic
import TiddlerShelf.Config.File
import TiddlerShelf.Container
import TiddlerShelf.Defaults
import TiddlerShelf.Filter.Basic
import TiddlerShelf.Filter.Outline
import TiddlerShelf.Filter.Parser
import TiddlerShelf.Filter.Token
import TiddlerShelf.Filter.Written
import TiddlerShelf.Fixtures
import TiddlerShelf.Hub.Announcement
import TiddlerShelf.Hub.Audience
import TiddlerShelf.Hub.Basic
import TiddlerShelf.Hub.Event
import TiddlerShelf.Json.Basic
import TiddlerShelf.Json.Parser
import TiddlerShelf.Json.Printer
import TiddlerShelf.Json.Quoted
import TiddlerShelf.Json.Token
import TiddlerShelf.Keyed
import TiddlerShelf.Remote.Basic
import TiddlerShelf.Remote.Server
import TiddlerShelf.Session.Basic
import TiddlerShelf.Session.Settle
import TiddlerShelf.Session.Steps
import TiddlerShelf.Space
import TiddlerShelf.Store.Basic
import TiddlerShelf.Store.Builder
import TiddlerShelf.Store.Collections
import TiddlerShelf.Store.Documents
import TiddlerShelf.Store.Error
import TiddlerShelf.Store.Location
import TiddlerShelf.Store.Program
import TiddlerShelf.Store.Refresh
import TiddlerShelf.Store.Resolver
import TiddlerShelf.Store.Source
import TiddlerShelf.Text.Blank
import TiddlerShelf.Text.CharRange
import TiddlerShelf.Text.Cut
import TiddlerShelf.Text.Decimal
import TiddlerShelf.Text.Hidden
import TiddlerShelf.Text.LowerCase
import TiddlerShelf.Text.Quoted
import TiddlerShelf.Text.WordChar
import TiddlerShelf.Tiddler.Attribute
import TiddlerShelf.Tiddler.Basic
import TiddlerShelf.Tiddler.Fields
import TiddlerShelf.Tiddler.Key
import TiddlerShelf.Tiddler.Wire
import TiddlerShelf.Tier
import TiddlerShelf.Time.Instant
import TiddlerShelf.Time.Rfc3339
import TiddlerShelf.Proofs.Narrowing
import TiddlerShelf.Proofs.Conditions
import TiddlerShelf.Proofs.FilterText
import TiddlerShelf.Proofs.ReadBack
import TiddlerShelf.Proofs.Key
import TiddlerShelf.Proofs.Tier
import TiddlerShelf.Proofs.Bagged
import TiddlerShelf.Proofs.Registrations
import TiddlerShelf.Proofs.Dispatch
import TiddlerShelf.Proofs.Announcement
import TiddlerShelf.Proofs.Arrival
import TiddlerShelf.Proofs.Quiet
import TiddlerShelf.Proofs.Edits
import TiddlerShelf.Proofs.Contract
import TiddlerShelf.Proofs.Upkeep
import TiddlerShelf.Proofs.Feed
import TiddlerShelf.Proofs.Intake
import TiddlerShelf.Proofs.Calls
import TiddlerShelf.Proofs.Activity
import TiddlerShelf.Proofs.Heed
import TiddlerShelf.Proofs.Invariants
import TiddlerShelf.Proofs.Fates
import TiddlerShelf.Proofs.LostEdits
import TiddlerShelf.Proofs.Unheard
import TiddlerShelf.Proofs.Origins
import TiddlerShelf.Proofs.TitleSaves
import TiddlerShelf.Proofs.OtherBags
import TiddlerShelf.Proofs.LateFiling
import TiddlerShelf.Proofs.Lookup
import TiddlerShelf.Proofs.Listings
import TiddlerShelf.Proofs.Undisturbed
import TiddlerShelf.Proofs.Exactness
import TiddlerShelf.Proofs.Settled
import TiddlerShelf.Proofs.Bookkeeping
import TiddlerShelf.Proofs.Sessions
import TiddlerShelf.Proofs.Flight
import TiddlerShelf.Proofs.SingleFlight
import TiddlerShelf.Proofs.FailedSaves
import TiddlerShelf.Proofs.Copies
import TiddlerShelf.Proofs.Course
import TiddlerShelf.Proofs.Exchange
import TiddlerShelf.Proofs.Pruning
import TiddlerShelf.Proofs.JsonText
import TiddlerShelf.Proofs.Calendar
import TiddlerShelf.Proofs.TimeText
import TiddlerShelf.Proofs.Wire
import TiddlerShelf.Proofs.WireText
import TiddlerShelf.Proofs.Mirror
import TiddlerShelf.Proofs.CachedEdits
import TiddlerShelf.Proofs.CacheFiles
import TiddlerShelf.Proofs.BoundCollections
import TiddlerShelf.Proofs.Restarts
import TiddlerShelf.Proofs.Refiling
import TiddlerShelf.Proofs.Served
import TiddlerShelf.Proofs.Saves
import TiddlerShelf.Proofs.Deletions
import TiddlerShelf.Proofs.Canonical
import TiddlerShelf.Proofs.Grouping
import TiddlerShelf.Proofs.Reimport
import TiddlerShelf.Proofs.Asking
import TiddlerShelf.Proofs.Sorting
import TiddlerShelf.Proofs.BestCopies
import TiddlerShelf.Proofs.LocalReads
import TiddlerShelf.Proofs.MergedView
import TiddlerShelf.Proofs.Escaping
import TiddlerShelf.Proofs.Drafts
import TiddlerShelf.Proofs.RefusedWrites
import TiddlerShelf.Proofs.Remembered
import TiddlerShelf.Proofs.RefreshRequests
import TiddlerShelf.Proofs.BlockEnds
import TiddlerShelf.Proofs.Progress
