import GuardedStore.Config.Basic
import GuardedStore.Config.Document
import GuardedStore.Domain.Basic
import GuardedStore.Fault
import GuardedStore.Guard.Access
import GuardedStore.Guard.Aspect
import GuardedStore.Guard.Audit
import GuardedStore.Guard.Lock
import GuardedStore.Guard.Patience
import GuardedStore.Guard.Validation
import GuardedStore.Identity
import GuardedStore.Json.Decode
import GuardedStore.Json.Tree
import GuardedStore.Proofs.Apart.Alike
import GuardedStore.Proofs.Apart.Company
import GuardedStore.Proofs.Apart.Delivery
import GuardedStore.Proofs.Apart.Founding
import GuardedStore.Proofs.Apart.Lookups
import GuardedStore.Proofs.Apart.Passage
import GuardedStore.Proofs.Apart.Runs
import GuardedStore.Proofs.Apart.Sides
import GuardedStore.Proofs.Apart.Steps
import GuardedStore.Proofs.Apart.Stores
import GuardedStore.Proofs.Apart.Tracks
import GuardedStore.Proofs.Apart.Twins
import GuardedStore.Proofs.Apart.Views
import GuardedStore.Proofs.Audit.Accesses
import GuardedStore.Proofs.Audit.Chain
import GuardedStore.Proofs.Audit.Law
import GuardedStore.Proofs.Audit.Record
import GuardedStore.Proofs.Audit.Steps
import GuardedStore.Proofs.Audit.Trail
import GuardedStore.Proofs.Audit.Unwinding
import GuardedStore.Proofs.Custody.Admitted
import GuardedStore.Proofs.Custody.Delivery
import GuardedStore.Proofs.Custody.Dropped
import GuardedStore.Proofs.Custody.Law
import GuardedStore.Proofs.Custody.Record
import GuardedStore.Proofs.Custody.Stores
import GuardedStore.Proofs.Document.Bounded
import GuardedStore.Proofs.Document.Lines
import GuardedStore.Proofs.Document.Readers
import GuardedStore.Proofs.Document.RoundTrip
import GuardedStore.Proofs.Document.Texts
import GuardedStore.Proofs.Estate.Admitted
import GuardedStore.Proofs.Estate.Binding
import GuardedStore.Proofs.Estate.Creating
import GuardedStore.Proofs.Estate.Finished
import GuardedStore.Proofs.Estate.Keys
import GuardedStore.Proofs.Estate.Law
import GuardedStore.Proofs.Estate.Order
import GuardedStore.Proofs.Estate.Record
import GuardedStore.Proofs.Estate.Refinement
import GuardedStore.Proofs.Estate.Registry
import GuardedStore.Proofs.Estate.Releasing
import GuardedStore.Proofs.Estate.Shelter
import GuardedStore.Proofs.Estate.Slots
import GuardedStore.Proofs.Estate.Steps
import GuardedStore.Proofs.Estate.Subscriptions
import GuardedStore.Proofs.Estate.Tenure
import GuardedStore.Proofs.Estate.Unfinished
import GuardedStore.Proofs.Exclusion.Crowd
import GuardedStore.Proofs.Exclusion.Holding
import GuardedStore.Proofs.Exclusion.Keeper
import GuardedStore.Proofs.Exclusion.Opening
import GuardedStore.Proofs.Fanout.Admitted
import GuardedStore.Proofs.Fanout.Law
import GuardedStore.Proofs.Fanout.Moves
import GuardedStore.Proofs.Fanout.Stores
import GuardedStore.Proofs.Flow.Admitted
import GuardedStore.Proofs.Flow.Aside
import GuardedStore.Proofs.Flow.Balance
import GuardedStore.Proofs.Flow.Delivery
import GuardedStore.Proofs.Flow.Execution
import GuardedStore.Proofs.Flow.Law
import GuardedStore.Proofs.Flow.Rebinding
import GuardedStore.Proofs.Flow.Record
import GuardedStore.Proofs.Flow.Requests
import GuardedStore.Proofs.Flow.Yields
import GuardedStore.Proofs.Ledger.Freshness
import GuardedStore.Proofs.Ledger.Law
import GuardedStore.Proofs.Ledger.Reads
import GuardedStore.Proofs.Ledger.Writes
import GuardedStore.Proofs.Mirror.Accesses
import GuardedStore.Proofs.Mirror.Bare
import GuardedStore.Proofs.Mirror.Delivery
import GuardedStore.Proofs.Mirror.Law
import GuardedStore.Proofs.Mirror.Lookups
import GuardedStore.Proofs.Mirror.Resting
import GuardedStore.Proofs.Mirror.Runs
import GuardedStore.Proofs.Mirror.Steps
import GuardedStore.Proofs.Mirror.Stores
import GuardedStore.Proofs.Nesting.Accesses
import GuardedStore.Proofs.Nesting.Delivery
import GuardedStore.Proofs.Nesting.Law
import GuardedStore.Proofs.Nesting.Open
import GuardedStore.Proofs.Nesting.Steps
import GuardedStore.Proofs.Nesting.Stores
import GuardedStore.Proofs.Passes.Accesses
import GuardedStore.Proofs.Passes.Aside
import GuardedStore.Proofs.Passes.Chain
import GuardedStore.Proofs.Passes.Hooks
import GuardedStore.Proofs.Passes.Law
import GuardedStore.Proofs.Passes.Locks
import GuardedStore.Proofs.Passes.Marks
import GuardedStore.Proofs.Passes.Pairing
import GuardedStore.Proofs.Passes.Record
import GuardedStore.Proofs.Passes.Steps
import GuardedStore.Proofs.Refusal.Accesses
import GuardedStore.Proofs.Refusal.Chain
import GuardedStore.Proofs.Refusal.Exact
import GuardedStore.Proofs.Refusal.Law
import GuardedStore.Proofs.Refusal.Steps
import GuardedStore.Proofs.Refusal.Stock
import GuardedStore.Proofs.Rounds.Admitted
import GuardedStore.Proofs.Rounds.Course
import GuardedStore.Proofs.Rounds.Law
import GuardedStore.Proofs.Rounds.Record
import GuardedStore.Proofs.Rounds.Requests
import GuardedStore.Proofs.Rounds.Runs
import GuardedStore.Proofs.Rounds.Settled
import GuardedStore.Proofs.Rounds.Turns
import GuardedStore.Proofs.Rounds.Unwound
import GuardedStore.Proofs.Run.Admits
import GuardedStore.Proofs.Run.Calm
import GuardedStore.Proofs.Run.Factories
import GuardedStore.Proofs.Run.Forms
import GuardedStore.Proofs.Run.Guided
import GuardedStore.Proofs.Run.Heaps
import GuardedStore.Proofs.Run.Law
import GuardedStore.Proofs.Run.Lookups
import GuardedStore.Proofs.Run.Making
import GuardedStore.Proofs.Run.Moments
import GuardedStore.Proofs.Run.Plain
import GuardedStore.Proofs.Run.Readying
import GuardedStore.Proofs.Run.Signalling
import GuardedStore.Proofs.Run.Standing
import GuardedStore.Proofs.Run.Steps
import GuardedStore.Proofs.Run.Storekeeping
import GuardedStore.Proofs.Run.Tally
import GuardedStore.Proofs.Tape.Accesses
import GuardedStore.Proofs.Tape.Law
import GuardedStore.Proofs.Tape.Lookups
import GuardedStore.Proofs.Tape.Runs
import GuardedStore.Proofs.Tape.Steps
import GuardedStore.Proofs.Tape.Stores
import GuardedStore.Proofs.Tape.Taped
import GuardedStore.Proofs.Verdict.Cells
import GuardedStore.Proofs.Verdict.Law
import GuardedStore.Proofs.Verdict.Steps
import GuardedStore.Scenario.Guarding
import GuardedStore.Scenario.Naming
import GuardedStore.Scenario.Run
import GuardedStore.Scenario.Scheduling
import GuardedStore.Scenario.Step
import GuardedStore.Scenario.Storage
import GuardedStore.Store.Arena
import GuardedStore.Store.Basic
import GuardedStore.Store.Item
import GuardedStore.Table
import GuardedStore.Text.Hex
import GuardedStore.Text.Quoted
import GuardedStore.Text.Reader
import GuardedStore.Text.Unprintable
import GuardedStore.Toml.Document
import GuardedStore.Toml.Node
import GuardedStore.Toml.Scalar
import GuardedStore.Toml.Strings
import GuardedStore.Toml.Writer
import GuardedStore.Value.Basic
import GuardedStore.Value.Float64
import GuardedStore.Value.Literal
import GuardedStore.Value.Predicate
import GuardedStore.World.Asking
import GuardedStore.World.Basic
import GuardedStore.World.Delivery
import GuardedStore.World.Engine
import GuardedStore.World.Happening
import GuardedStore.World.Items
import GuardedStore.World.Log
import GuardedStore.World.Passage
import GuardedStore.World.Stores
import GuardedStore.Proofs.Estate.Tenure
