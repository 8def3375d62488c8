import StatementPool.Notification
import StatementPool.Options.Flags
import StatementPool.Options.Json
import StatementPool.Pool.Future
import StatementPool.Pool.Schedule
import StatementPool.Proofs.Pool.Counters
import StatementPool.Proofs.Pool.Delivery
import StatementPool.Proofs.Pool.Order
import StatementPool.Proofs.Record.RoundTrip
import StatementPool.Record.Collection
import StatementPool.Value.Json
import StatementPool.Proofs.Pool.Periods
import StatementPool.Proofs.Pool.Signals
import StatementPool.Proofs.Statement.InsertSelect
import StatementPool.Proofs.Pool.Exclusion
import StatementPool.Proofs.Pool.Blocks
import StatementPool.Proofs.Pool.Machine
import StatementPool.Proofs.Pool.Inserts
import StatementPool.Proofs.Record.Validation
import StatementPool.Proofs.Field.Canonical
import StatementPool.Proofs.Record.Declaration
import StatementPool.Proofs.Record.Binding
import StatementPool.Proofs.Statement.Selection
import StatementPool.Proofs.Statement.Hidden
import StatementPool.Proofs.Pool.Reports
import StatementPool.Proofs.Pool.Naming
import StatementPool.Proofs.Options.Json
import StatementPool.Proofs.Field.Dates
import StatementPool.Proofs.Value.Json
import StatementPool.Proofs.Notification
import StatementPool.Proofs.Record.Ranks
