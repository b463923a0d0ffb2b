import Folio.Access.ByField
import Folio.Access.Find
import Folio.Access.Lock
import Folio.Access.Whole
import Folio.Config.Reader
import Folio.Demo
import Folio.Main
import Folio.Proofs.Access.Answer
import Folio.Proofs.Access.Attempts
import Folio.Proofs.Access.Batch
import Folio.Proofs.Access.Check
import Folio.Proofs.Access.Deadline
import Folio.Proofs.Access.Errand
import Folio.Proofs.Access.Failed
import Folio.Proofs.Access.Find
import Folio.Proofs.Access.History
import Folio.Proofs.Access.Key
import Folio.Proofs.Access.Lease
import Folio.Proofs.Access.Merging
import Folio.Proofs.Access.Operation
import Folio.Proofs.Access.Records
import Folio.Proofs.Access.Removal
import Folio.Proofs.Access.Replay
import Folio.Proofs.Binary64.Nearest
import Folio.Proofs.Binary64.Rounding
import Folio.Proofs.Binary64.Shortest
import Folio.Proofs.Config.Connect
import Folio.Proofs.Config.Url
import Folio.Proofs.Document.Blob
import Folio.Proofs.Document.Decoded
import Folio.Proofs.Document.Edits
import Folio.Proofs.Document.FieldTable
import Folio.Proofs.Except
import Folio.Proofs.Glob.Characters
import Folio.Proofs.Glob.Match
import Folio.Proofs.Glob.Reading
import Folio.Proofs.Glob.Star
import Folio.Proofs.Json.Accepted
import Folio.Proofs.Json.Literal
import Folio.Proofs.Json.Loops
import Folio.Proofs.Json.Number
import Folio.Proofs.Json.Numeral
import Folio.Proofs.KeyPattern
import Folio.Proofs.KeyPattern.Class
import Folio.Proofs.KeyPattern.Item
import Folio.Proofs.KeyPattern.Match
import Folio.Proofs.KeyPattern.Plain
import Folio.Proofs.Location
import Folio.Proofs.Location.Pattern
import Folio.Proofs.Location.Pieces
import Folio.Proofs.Location.Scan
import Folio.Proofs.Redis.Expiry
import Folio.Proofs.Redis.Fields
import Folio.Proofs.Redis.Glob
import Folio.Proofs.Redis.Scan
import Folio.Proofs.Retry.Cancelled
import Folio.Proofs.Retry.Run
import Folio.Proofs.Retry.Timeline
import Folio.Proofs.SortedMap
import Folio.Proofs.Store.Content
import Folio.Proofs.Store.Memory
import Folio.Proofs.Store.Prompt
import Folio.Proofs.Text.Blank
import Folio.Proofs.Text.Digits
import Folio.Proofs.Text.Utf8
import Folio.Proofs.Value.Grammar
import Folio.Proofs.Value.Nesting
import Folio.Proofs.Value.Number
import Folio.Proofs.Value.RoundTrip
import Folio.Redis.Store
import Folio.Store.Lossy
import Folio.Store.Memory
import Folio.Store.Prompt
import Folio.Store.Rehearsed
