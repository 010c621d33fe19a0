import LinkedDocs.Answer
import LinkedDocs.Broadcast
import LinkedDocs.Change
import LinkedDocs.Decimal.Double
import LinkedDocs.Decimal.Shortest
import LinkedDocs.Dict
import LinkedDocs.Entity
import LinkedDocs.Filter
import LinkedDocs.Glob.Basic
import LinkedDocs.Glob.Class
import LinkedDocs.Glob.Limits
import LinkedDocs.Glob.Pattern
import LinkedDocs.Json.Literal
import LinkedDocs.Json.Printer
import LinkedDocs.Json.Reader
import LinkedDocs.Json.Value
import LinkedDocs.Manager
import LinkedDocs.Notification
import LinkedDocs.Order
import LinkedDocs.Pass
import LinkedDocs.Permission
import LinkedDocs.Plan
import LinkedDocs.Projection
import LinkedDocs.Proofs.Manager.BulkWrite
import LinkedDocs.Proofs.Manager.Write
import LinkedDocs.Proofs.Pass.Calls
import LinkedDocs.Proofs.Pass.Composition
import LinkedDocs.Proofs.Pass.Expansion
import LinkedDocs.Proofs.Pass.Memo
import LinkedDocs.Proofs.Pass.Resolution
import LinkedDocs.Proofs.Pass.Schedule
import LinkedDocs.Proofs.Pass.Step
import LinkedDocs.Proofs.Permission.Narrowing
import LinkedDocs.Proofs.Plan.Nodes
import LinkedDocs.Proofs.Plan.Paths
import LinkedDocs.Proofs.Plan.Scopes
import LinkedDocs.Proofs.Plan.Serving
import LinkedDocs.Proofs.Query.Noninterference
import LinkedDocs.Proofs.Query.Restriction
import LinkedDocs.Proofs.Reading.Demand
import LinkedDocs.Proofs.Reading.Equivalence
import LinkedDocs.Proofs.Reading.Plain
import LinkedDocs.Proofs.Reading.Writing
import LinkedDocs.Proofs.Store.Dialogue
import LinkedDocs.Proofs.Store.Reachable
import LinkedDocs.Proofs.Store.Reads
import LinkedDocs.Query
import LinkedDocs.Query.Error
import LinkedDocs.Request
import LinkedDocs.Scope
import LinkedDocs.Selector.Basic
import LinkedDocs.Selector.Cache
import LinkedDocs.Selector.Forms
import LinkedDocs.Selector.Reader
import LinkedDocs.Service
import LinkedDocs.Settings
import LinkedDocs.Sorted
import LinkedDocs.Store.Call
import LinkedDocs.Store.Error
import LinkedDocs.Store.Fault
import LinkedDocs.Store.Memory
import LinkedDocs.Text.Alphanumeric
import LinkedDocs.Text.CodePoints
import LinkedDocs.Text.Folding
import LinkedDocs.Text.Quoted
import LinkedDocs.Proofs.Store.Failures
import LinkedDocs.Proofs.Store.Writes
import LinkedDocs.Operation
import LinkedDocs.Proofs.Store.Sound
import LinkedDocs.Proofs.Manager.Calls
import LinkedDocs.Proofs.Manager.Endings
import LinkedDocs.Proofs.Manager.OrderedMap
import LinkedDocs.Proofs.Manager.Replay
import LinkedDocs.Proofs.Manager.Announcements
import LinkedDocs.Proofs.Store.Identity
import LinkedDocs.Proofs.Query.Faults
import LinkedDocs.Proofs.Plan.Branches
import LinkedDocs.Proofs.Store.Steady
import LinkedDocs.Proofs.Pass.Fetch
import LinkedDocs.Proofs.Pass.Progress
import LinkedDocs.Proofs.Pass.Completion
import LinkedDocs.Proofs.Pass.Outcome
import LinkedDocs.Proofs.Pass.Orders
import LinkedDocs.Proofs.Manager.OneByOne
import LinkedDocs.Proofs.Selector.Grammar
import LinkedDocs.Proofs.Manager.Success
import LinkedDocs.Proofs.Manager.View
import LinkedDocs.Proofs.Query.Refusals
import LinkedDocs.Proofs.Manager.Histories
import LinkedDocs.Proofs.Plan.Rescoping
import LinkedDocs.Proofs.Reading.Pages
import LinkedDocs.Proofs.Selector.Remembering
import LinkedDocs.Proofs.Reading.Paging
import LinkedDocs.Proofs.Store.Alike
import LinkedDocs.Proofs.Plan.Renumbering
import LinkedDocs.Proofs.Pass.Simulation
import LinkedDocs.Proofs.Reading.Rendering
import LinkedDocs.Proofs.Reading.Embedding
import LinkedDocs.Proofs.Store.Bookkeeping
import LinkedDocs.Proofs.Reading.Bookkeeping
import LinkedDocs.Proofs.Manager.Bookkeeping
import LinkedDocs.Proofs.Manager.Patches
import LinkedDocs.Proofs.Manager.Repetition
import LinkedDocs.Proofs.Notification.Wire
import LinkedDocs.Proofs.Selector.Errors
import LinkedDocs.Proofs.Selector.Forms
import LinkedDocs.Proofs.Permission.Denial
import LinkedDocs.Proofs.Plan.Trie
import LinkedDocs.Proofs.Reading.Enough
import LinkedDocs.Proofs.Reading.Keys
import LinkedDocs.Proofs.Decimal.Rounding
import LinkedDocs.Proofs.Order.Comparison
import LinkedDocs.Proofs.Json.Spelling
import LinkedDocs.Proofs.Order.Ties
import LinkedDocs.Proofs.Filter.Membership
import LinkedDocs.Proofs.Filter.Inverse
import LinkedDocs.Proofs.Text.Folding
import LinkedDocs.Proofs.Glob.Classes
import LinkedDocs.Proofs.Glob.Meaning
import LinkedDocs.Glob.Rendering
import LinkedDocs.Proofs.Glob.Translation
import LinkedDocs.Proofs.Glob.Wildcards
import LinkedDocs.Proofs.Change.Versions
import LinkedDocs.Proofs.Notification.Delivery
import LinkedDocs.Proofs.Store.Places
import LinkedDocs.Proofs.Glob.OneClass
import LinkedDocs.Proofs.Store.Revisions
import LinkedDocs.Proofs.Plan.Numbering
import LinkedDocs.Proofs.Pass.Caches
import LinkedDocs.Proofs.Pass.Tasks
import LinkedDocs.Proofs.Pass.Interleaving
import LinkedDocs.Proofs.Pass.Sequential
import LinkedDocs.Proofs.Pass.Fetches
