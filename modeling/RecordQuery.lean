import RecordQuery.Service.Records
import RecordQuery.Sql.Statement
import RecordQuery.Proofs.Reading
import RecordQuery.Proofs.Merging
import RecordQuery.Proofs.Runs
import RecordQuery.Proofs.Marker
import RecordQuery.Proofs.Compiled
import RecordQuery.Proofs.Ordered
import RecordQuery.Proofs.Kept
import RecordQuery.Proofs.Scope
import RecordQuery.Proofs.Compatible
import RecordQuery.Proofs.Calls
import RecordQuery.Proofs.SoftDeletes
import RecordQuery.Proofs.Operands
import RecordQuery.Proofs.Placeholders
import RecordQuery.Proofs.Nearest
import RecordQuery.Proofs.Numerals
import RecordQuery.Proofs.Printed
import RecordQuery.Proofs.Keys
import RecordQuery.Proofs.Reads
import RecordQuery.Proofs.Freshness
import RecordQuery.Proofs.Patterns
import RecordQuery.Proofs.Filters
import RecordQuery.Proofs.Dispatch
import RecordQuery.Proofs.Boundary
import RecordQuery.Proofs.Grammar
import RecordQuery.Proofs.Records
import RecordQuery.Proofs.Pages
import RecordQuery.Proofs.Reread
import RecordQuery.Proofs.Precedence
import RecordQuery.Proofs.TimedMap
import RecordQuery.Proofs.Recompiled
import RecordQuery.Proofs.FailedReads
import RecordQuery.Proofs.Requested
import RecordQuery.Proofs.Rebuilt
import RecordQuery.Proofs.Clauses
import RecordQuery.Proofs.Tiles
import RecordQuery.Proofs.Leaves
