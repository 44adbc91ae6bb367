import FreshTag.Main
import FreshTag.Proofs.Cache.Identities
import FreshTag.Proofs.Cache.Neighbours
import FreshTag.Proofs.Cache.Representation
import FreshTag.Proofs.Cache.Table
import FreshTag.Proofs.Catalog.Quoting
import FreshTag.Proofs.Catalog.Resolution
import FreshTag.Proofs.Change.Arrivals
import FreshTag.Proofs.Change.Freshness
import FreshTag.Proofs.Change.Headers
import FreshTag.Proofs.Change.Independence
import FreshTag.Proofs.Change.Interleavings
import FreshTag.Proofs.Change.Messages
import FreshTag.Proofs.Change.NumericIds
import FreshTag.Proofs.Change.ReadBack
import FreshTag.Proofs.Change.Replay
import FreshTag.Proofs.Change.Validation
import FreshTag.Proofs.Change.Warnings
import FreshTag.Proofs.Change.Writers
import FreshTag.Proofs.Conditional.Matching
import FreshTag.Proofs.Etag.Dates
import FreshTag.Proofs.Etag.Reissued
import FreshTag.Proofs.Listener.Leftovers
import FreshTag.Proofs.Listener.Sharing
import FreshTag.Proofs.Listener.Task
import FreshTag.Proofs.Settings.Keys
import FreshTag.Proofs.Settings.Precedence
import FreshTag.Proofs.Settings.Rules
import FreshTag.Proofs.Settings.Sayings
import FreshTag.Proofs.Telemetry.Ledger
