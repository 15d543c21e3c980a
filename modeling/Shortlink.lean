import Shortlink.CommandLine
import Shortlink.CommandLine.Flag
import Shortlink.CommandLine.Scan
import Shortlink.CommandLine.Verb
import Shortlink.Deletion.Course
import Shortlink.Deletion.Pipeline
import Shortlink.Deletion.Request
import Shortlink.Digest.Base64Url
import Shortlink.Digest.Md5
import Shortlink.Disk
import Shortlink.Error
import Shortlink.Idna
import Shortlink.Idna.Mapping
import Shortlink.Idna.Punycode
import Shortlink.Journal
import Shortlink.Journal.Line
import Shortlink.Journal.Replay
import Shortlink.Json
import Shortlink.Json.Fields
import Shortlink.Json.Links
import Shortlink.Json.Reader
import Shortlink.Link
import Shortlink.Main
import Shortlink.Owner
import Shortlink.Program
import Shortlink.Proofs.Deletion.Accounting
import Shortlink.Proofs.Deletion.Conservation
import Shortlink.Proofs.Deletion.Course
import Shortlink.Proofs.Deletion.Drain
import Shortlink.Proofs.Deletion.Lifecycle
import Shortlink.Proofs.Deletion.Recording
import Shortlink.Proofs.Deletion.Request
import Shortlink.Proofs.Deletion.Shutdown
import Shortlink.Proofs.Deletion.Steps
import Shortlink.Proofs.Deletion.Timeout
import Shortlink.Proofs.Disk
import Shortlink.Proofs.Disk.Directories
import Shortlink.Proofs.Distinct
import Shortlink.Proofs.Journal.Append
import Shortlink.Proofs.Journal.Changes
import Shortlink.Proofs.Journal.Cut
import Shortlink.Proofs.Journal.Line
import Shortlink.Proofs.Json.Extent
import Shortlink.Proofs.Json.RoundTrip
import Shortlink.Proofs.Json.Scalar
import Shortlink.Proofs.Json.TokenExtent
import Shortlink.Proofs.Keys
import Shortlink.Proofs.Service.Batch
import Shortlink.Proofs.Service.Codes
import Shortlink.Proofs.Service.Confluence
import Shortlink.Proofs.Service.LinkMap
import Shortlink.Proofs.Service.Refinement
import Shortlink.Proofs.Service.Reflection
import Shortlink.Proofs.Service.Sequence
import Shortlink.Proofs.Service.Simulation
import Shortlink.Proofs.Service.Uniqueness
import Shortlink.Proofs.Sql.Transaction
import Shortlink.Proofs.Store.Batch
import Shortlink.Proofs.Store.Commit
import Shortlink.Proofs.Store.Deletion
import Shortlink.Proofs.Store.Equivalence
import Shortlink.Proofs.Store.Open
import Shortlink.Proofs.Store.Simulation
import Shortlink.Proofs.Store.Stability
import Shortlink.Proofs.Store.State
import Shortlink.Proofs.Store.Torn
import Shortlink.Proofs.Table.Changes
import Shortlink.Proofs.Table.Deletion
import Shortlink.Proofs.Table.Growth
import Shortlink.Proofs.Table.Index
import Shortlink.Proofs.Text.Bytes
import Shortlink.Proofs.Text.Lines
import Shortlink.Proofs.Uuid
import Shortlink.Service
import Shortlink.Service.Answer
import Shortlink.ShortCode
import Shortlink.Sql
import Shortlink.Sql.Address
import Shortlink.Sql.Row
import Shortlink.Sql.Script
import Shortlink.Sql.Statement
import Shortlink.Sql.Table
import Shortlink.Sql.Trace
import Shortlink.Storage
import Shortlink.Store
import Shortlink.Store.Faulty
import Shortlink.Store.File
import Shortlink.Store.Memory
import Shortlink.Store.Postgres
import Shortlink.Table
import Shortlink.Text.Blank
import Shortlink.Text.Hex
import Shortlink.Text.Lines
import Shortlink.Text.Percent
import Shortlink.Text.Quoted
import Shortlink.Text.Terminal
import Shortlink.Text.Utf8
import Shortlink.Text.Word
import Shortlink.Unicode.Bidi
import Shortlink.Unicode.CombiningClass
import Shortlink.Unicode.Decomposition
import Shortlink.Unicode.Joining
import Shortlink.Unicode.Mark
import Shortlink.Unicode.Normal
import Shortlink.Unicode.Printable
import Shortlink.Unicode.Table
import Shortlink.Url
import Shortlink.Url.Host
import Shortlink.Url.Ipv4
import Shortlink.Url.Ipv6
import Shortlink.Url.Path
import Shortlink.Url.Query
import Shortlink.Uuid
import Shortlink.Proofs.Store.Isolation
import Shortlink.Proofs.Deletion.Order
import Shortlink.Proofs.Deletion.Phase
import Shortlink.Proofs.Deletion.Turns
import Shortlink.Proofs.Deletion.WorkedOff
import Shortlink.Proofs.Program.Command
import Shortlink.Proofs.Program.Drain
import Shortlink.Proofs.Program.Session
import Shortlink.Proofs.Sql.Prescribed
import Shortlink.Proofs.Sql.Rows
import Shortlink.Proofs.Store.Database
import Shortlink.Proofs.Store.Seam
import Shortlink.Proofs.Deletion.Passage
import Shortlink.Proofs.Service.Faults
import Shortlink.Proofs.Deletion.Remainder
import Shortlink.Proofs.Deletion.Roster
import Shortlink.Proofs.Deletion.Settling
import Shortlink.Proofs.Deletion.Punctual
import Shortlink.Proofs.Deletion.Deadline
import Shortlink.Proofs.Deletion.Overtaking
import Shortlink.Proofs.Store.OneByOne
import Shortlink.Proofs.Store.AppendOnly
import Shortlink.Proofs.Store.Counts
import Shortlink.Proofs.CommandLine.Variables
import Shortlink.Proofs.CommandLine.EmptySettings
import Shortlink.Proofs.Store.Indexes
import Shortlink.Proofs.Json.Pretty
import Shortlink.Proofs.Json.Forms
import Shortlink.Proofs.Sql.Outages
import Shortlink.Proofs.Store.Provenance
import Shortlink.Proofs.Service.KeySpaces
