import SymbolAtlas.Cache.Basic
import SymbolAtlas.Cache.Disk
import SymbolAtlas.Cache.Folder
import SymbolAtlas.Cache.Memory
import SymbolAtlas.Cache.Record
import SymbolAtlas.Collect
import SymbolAtlas.Collection
import SymbolAtlas.CommandLine.Command
import SymbolAtlas.CommandLine.Report
import SymbolAtlas.CommandLine.Run
import SymbolAtlas.CommandLine.Usage
import SymbolAtlas.Config.Basic
import SymbolAtlas.Config.Coding
import SymbolAtlas.Config.Load
import SymbolAtlas.Config.Location
import SymbolAtlas.Config.Setting
import SymbolAtlas.Config.Sources
import SymbolAtlas.Decimal.Fixed
import SymbolAtlas.Decimal.Magnitude
import SymbolAtlas.Decimal.Nearest
import SymbolAtlas.Decimal.Reader
import SymbolAtlas.Decimal.Shortest
import SymbolAtlas.Digest.Sha256
import SymbolAtlas.Environment
import SymbolAtlas.Extensions
import SymbolAtlas.Files.Edit
import SymbolAtlas.Files.Glob
import SymbolAtlas.Files.Ignore
import SymbolAtlas.Files.Listing
import SymbolAtlas.Files.Tree
import SymbolAtlas.Index.Groups
import SymbolAtlas.Index.Query
import SymbolAtlas.Index.Snapshot
import SymbolAtlas.Index.Update
import SymbolAtlas.Json.Basic
import SymbolAtlas.Json.Decode
import SymbolAtlas.Json.Reader
import SymbolAtlas.Json.Writer
import SymbolAtlas.Main
import SymbolAtlas.Path
import SymbolAtlas.Pattern.Basic
import SymbolAtlas.Pattern.Parser
import SymbolAtlas.Search.Distance
import SymbolAtlas.Search.Options
import SymbolAtlas.Search.Ranking
import SymbolAtlas.Search.Run
import SymbolAtlas.Search.Score
import SymbolAtlas.Search.Searcher
import SymbolAtlas.Solution
import SymbolAtlas.Sources
import SymbolAtlas.Symbol.Basic
import SymbolAtlas.Symbol.Coding
import SymbolAtlas.Symbol.Kind
import SymbolAtlas.Text.Blank
import SymbolAtlas.Text.CaseTable
import SymbolAtlas.Text.Category
import SymbolAtlas.Text.CategoryTable
import SymbolAtlas.Text.CharSet
import SymbolAtlas.Text.Digits
import SymbolAtlas.Text.Lowercase
import SymbolAtlas.Text.Quoted
import SymbolAtlas.Text.ScriptTable
import SymbolAtlas.Toml.Basic
import SymbolAtlas.Toml.Draft
import SymbolAtlas.Toml.Moment
import SymbolAtlas.Toml.Reader
import SymbolAtlas.Toml.Text
import SymbolAtlas.Toml.Writer
import SymbolAtlas.Trie
import SymbolAtlas.Update.Schedule
import SymbolAtlas.Update.Tracking
import SymbolAtlas.Update.Updater
import SymbolAtlas.Update.Work
import SymbolAtlas.Watch.Change
import SymbolAtlas.Watch.Forwarder
import SymbolAtlas.Watch.Notice
import SymbolAtlas.Watch.Session
import SymbolAtlas.Watch.Watcher
import SymbolAtlas.Workspace
import SymbolAtlas.Proofs.Index.Distinct
import SymbolAtlas.Proofs.Index.Groups
import SymbolAtlas.Proofs.Index.Refinement
import SymbolAtlas.Proofs.Index.Delta
import SymbolAtlas.Proofs.Index.Owners
import SymbolAtlas.Proofs.Index.Conditions
import SymbolAtlas.Proofs.Index.Narrowing
import SymbolAtlas.Proofs.Text.Lowercase
import SymbolAtlas.Proofs.Trie.Nodes
import SymbolAtlas.Proofs.Trie.Order
import SymbolAtlas.Proofs.Index.Beginnings
import SymbolAtlas.Proofs.Index.Carriers
import SymbolAtlas.Proofs.Index.Report
import SymbolAtlas.Proofs.Index.Replacing
import SymbolAtlas.Proofs.Collect
import SymbolAtlas.Proofs.Update.Reindex
import SymbolAtlas.Proofs.Update.Work
import SymbolAtlas.Proofs.Files.Tree
import SymbolAtlas.Proofs.Files.Listing
import SymbolAtlas.Proofs.Upkeep.Solution
import SymbolAtlas.Proofs.Upkeep.Tracking
import SymbolAtlas.Proofs.Upkeep.Updater
import SymbolAtlas.Proofs.Upkeep.Run
import SymbolAtlas.Proofs.Cache.Coherence
import SymbolAtlas.Proofs.Cache.Transparency
import SymbolAtlas.Proofs.Cache.Expiry
import SymbolAtlas.Proofs.Cache.Book
import SymbolAtlas.Proofs.Cache.Balance
import SymbolAtlas.Proofs.Cache.Eviction
import SymbolAtlas.Proofs.Cache.Counters
import SymbolAtlas.Proofs.Cache.Faults
import SymbolAtlas.Proofs.Cache.Superseded
import SymbolAtlas.Proofs.Search.Remembered
import SymbolAtlas.Proofs.Search.Answer
import SymbolAtlas.Proofs.Search.Numbers
import SymbolAtlas.Proofs.Search.Enumeration
import SymbolAtlas.Proofs.Search.Beginnings
import SymbolAtlas.Proofs.Search.Exact
import SymbolAtlas.Proofs.Search.Edits
import SymbolAtlas.Proofs.Update.Diary
import SymbolAtlas.Proofs.Update.Debounce
import SymbolAtlas.Proofs.Update.Overtaking
import SymbolAtlas.Proofs.Update.Ownership
import SymbolAtlas.Proofs.Update.Shutdown
import SymbolAtlas.Proofs.Update.Discovery
import SymbolAtlas.Proofs.Update.Survey
import SymbolAtlas.Proofs.Update.Widening
import SymbolAtlas.Proofs.Collect.Delivery
import SymbolAtlas.Proofs.Extensions
import SymbolAtlas.Proofs.Watch.Forwarder
import SymbolAtlas.Proofs.Watch.Posts
import SymbolAtlas.Proofs.Watch.Spelling
import SymbolAtlas.Proofs.Watch.Startup
import SymbolAtlas.Proofs.Cache.Clearing
import SymbolAtlas.Proofs.Watch.Notice
import SymbolAtlas.Proofs.Watch.Recreation
import SymbolAtlas.Proofs.Config.Saving
