import DelegatedAccess.Bytes
import DelegatedAccess.Bytes.Lemmas
import DelegatedAccess.Hex
import DelegatedAccess.Sha256
import DelegatedAccess.Entity
import DelegatedAccess.Role
import DelegatedAccess.Rule.Basic
import DelegatedAccess.Rule.Clause
import DelegatedAccess.Rule.Encoding
import DelegatedAccess.Rule.Error
import DelegatedAccess.Rule.Structure
import DelegatedAccess.Oracle.Basic
import DelegatedAccess.Oracle.Policy
import DelegatedAccess.Rule.Evaluation
import DelegatedAccess.Store.Key
import DelegatedAccess.Store.Table
import DelegatedAccess.Decimal
import DelegatedAccess.Grant
import DelegatedAccess.Event
import DelegatedAccess.Config.Basic
import DelegatedAccess.Error
import DelegatedAccess.Store.Basic
import DelegatedAccess.Transaction
import DelegatedAccess.Decision
import DelegatedAccess.Instance
import DelegatedAccess.Operation
import DelegatedAccess.Query
import DelegatedAccess.Scenario.Step
import DelegatedAccess.Scenario.Run
import DelegatedAccess.Text.Reader
import DelegatedAccess.Binary64
import DelegatedAccess.Toml.Value
import DelegatedAccess.Toml.Scalar
import DelegatedAccess.Toml.Text
import DelegatedAccess.Toml.Document
import DelegatedAccess.Config.Toml
import DelegatedAccess.Json.Value
import DelegatedAccess.Json.Reader
import DelegatedAccess.Json.Text
import DelegatedAccess.Json.Number
import DelegatedAccess.Json.Kind
import DelegatedAccess.Json.Skip
import DelegatedAccess.Json.Record
import DelegatedAccess.Http.MediaType
import DelegatedAccess.Http.Message
import DelegatedAccess.Http.Demand
import DelegatedAccess.Http.Route
import DelegatedAccess.Http.Reply
import DelegatedAccess.Http.Service
import DelegatedAccess.Proofs.Decimal
import DelegatedAccess.Proofs.Hex
import DelegatedAccess.Proofs.Role
import DelegatedAccess.Proofs.Grant
import DelegatedAccess.Proofs.Rule.Encoding
import DelegatedAccess.Proofs.Store.Grantees
import DelegatedAccess.Proofs.Store.Change
import DelegatedAccess.Proofs.Operation
import DelegatedAccess.Proofs.Performance
import DelegatedAccess.Proofs.Rule.Instrument
import DelegatedAccess.Proofs.Rule.Alike
import DelegatedAccess.Proofs.Rule.Marks
import DelegatedAccess.Proofs.Run
import DelegatedAccess.Proofs.Store.Sound
import DelegatedAccess.Proofs.Burning
import DelegatedAccess.Proofs.Exclusivity
import DelegatedAccess.Proofs.Rule.Order
import DelegatedAccess.Proofs.Rule.Reference
import DelegatedAccess.Proofs.Rule.Correctness
import DelegatedAccess.Proofs.Rule.Trace
import DelegatedAccess.Proofs.Rule.Asking
import DelegatedAccess.Proofs.Rule.Sharing
import DelegatedAccess.Proofs.Rule.Failure
import DelegatedAccess.Proofs.Rule.Search
import DelegatedAccess.Proofs.Rule.Reachability
import DelegatedAccess.Proofs.Rule.Acceptance
import DelegatedAccess.Proofs.Rule.Cyclic
import DelegatedAccess.Proofs.Rule.Tangle
import DelegatedAccess.Proofs.Rule.Removal
import DelegatedAccess.Proofs.Rule.Roots
import DelegatedAccess.Proofs.Rule.Nesting
import DelegatedAccess.Proofs.Rule.Blame
import DelegatedAccess.Proofs.Rule.Depth
import DelegatedAccess.Proofs.Rule.Dependence
import DelegatedAccess.Proofs.Rule.Relocation
import DelegatedAccess.Proofs.Rule.Conjunction
import DelegatedAccess.Proofs.Rule.Packing
import DelegatedAccess.Proofs.Candidate
import DelegatedAccess.Proofs.Integrity
import DelegatedAccess.Proofs.Creation
import DelegatedAccess.Proofs.Sealing
import DelegatedAccess.Proofs.Enumeration
import DelegatedAccess.Proofs.Host
import DelegatedAccess.Proofs.Isolation
import DelegatedAccess.Proofs.Ledger.Basic
import DelegatedAccess.Proofs.Ledger.Representation
import DelegatedAccess.Proofs.Ledger.Refinement
import DelegatedAccess.Proofs.Journal.Account
import DelegatedAccess.Proofs.Journal.Recording
import DelegatedAccess.Proofs.Deed
import DelegatedAccess.Proofs.Initialization
import DelegatedAccess.Proofs.Consultation
import DelegatedAccess.Proofs.Publication
import DelegatedAccess.Proofs.Separation
import DelegatedAccess.Proofs.Deduplication
import DelegatedAccess.Proofs.Reservation
import DelegatedAccess.Proofs.Verdict
import DelegatedAccess.Proofs.Discretion
import DelegatedAccess.Proofs.Commutation
import DelegatedAccess.Proofs.Text.Reader
import DelegatedAccess.Proofs.Json.Syntax
import DelegatedAccess.Proofs.Json.Reading
import DelegatedAccess.Proofs.Json.Kind
import DelegatedAccess.Proofs.Json.Skip
import DelegatedAccess.Proofs.Json.Record
import DelegatedAccess.Proofs.Json.Writing
import DelegatedAccess.Proofs.Http.Body
import DelegatedAccess.Proofs.Http.MediaType
import DelegatedAccess.Proofs.Http.Routing
import DelegatedAccess.Proofs.Http.Reply
import DelegatedAccess.Proofs.Http.Service
