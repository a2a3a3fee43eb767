import Beneficiary.Main
import Beneficiary.Proofs.Criteria.Traversal
import Beneficiary.Proofs.Criteria.FirstError
import Beneficiary.Proofs.Criteria.Meaning
import Beneficiary.Proofs.Store.Reachable
import Beneficiary.Proofs.Store.Identity
import Beneficiary.Proofs.Store.Listing
import Beneficiary.Proofs.Targeting.Accounting
import Beneficiary.Proofs.Text.Pieces
import Beneficiary.Proofs.Store.Labels
import Beneficiary.Proofs.Targeting.Exclusion
import Beneficiary.Proofs.Targeting.Listed
import Beneficiary.Proofs.Store.Reading
import Beneficiary.Proofs.Criteria.Schema
import Beneficiary.Proofs.Store.Catalog
import Beneficiary.Proofs.Targeting.Advertised
import Beneficiary.Proofs.Criteria.Refinement
import Beneficiary.Proofs.Store.Growth
import Beneficiary.Proofs.Targeting.Verdicts
import Beneficiary.Proofs.Criteria.Members
import Beneficiary.Proofs.Targeting.Withdrawal
import Beneficiary.Proofs.Text.Numeral
import Beneficiary.Proofs.Json.Fields
import Beneficiary.Proofs.Store.Rounds
import Beneficiary.Proofs.Store.Recording
import Beneficiary.Proofs.Json.Equality
import Beneficiary.Proofs.Store.Updates
import Beneficiary.Proofs.Store.Interleaving
import Beneficiary.Proofs.Store.Transactions
import Beneficiary.Proofs.Http.Requests
import Beneficiary.Proofs.Http.Effects
import Beneficiary.Proofs.Text.Occurrence
import Beneficiary.Proofs.Store.Refusals
import Beneficiary.Proofs.Http.Statuses
import Beneficiary.Proofs.Json.Literals
import Beneficiary.Proofs.Json.Text
import Beneficiary.Proofs.Json.Decoding
import Beneficiary.Proofs.Wire.Criteria
import Beneficiary.Proofs.Json.Layout
import Beneficiary.Proofs.CommandLine.Agreement
import Beneficiary.Proofs.Text.Digits
import Beneficiary.Proofs.Calendar.Dates
import Beneficiary.Proofs.Store.Rows
import Beneficiary.Proofs.Store.Retention
import Beneficiary.Proofs.Criteria.Coincidence
import Beneficiary.Proofs.Targeting.Agreement
import Beneficiary.Proofs.Targeting.ReferenceDate
import Beneficiary.Proofs.Criteria.HeadOnly
import Beneficiary.Proofs.Targeting.HeadOnly
import Beneficiary.Proofs.Store.Isolation
import Beneficiary.Proofs.Criteria.Portrait
import Beneficiary.Proofs.Store.Portraits
import Beneficiary.Proofs.Targeting.RegistrationOrder
import Beneficiary.Proofs.Criteria.Joining
import Beneficiary.Proofs.Criteria.Rearrangement
import Beneficiary.Proofs.Criteria.Arguments
import Beneficiary.Proofs.Criteria.Acceptance
import Beneficiary.Proofs.Criteria.Typing
import Beneficiary.Proofs.Calendar.Moments
import Beneficiary.Proofs.Uuid
import Beneficiary.Proofs.Json.Decoded
import Beneficiary.Proofs.Wire.Field
import Beneficiary.Proofs.Wire.Registry
import Beneficiary.Proofs.Wire.RoundTrip
import Beneficiary.Proofs.Criteria.Descriptions
import Beneficiary.Proofs.Targeting.CurrentMembers
import Beneficiary.Proofs.Targeting.Complement
import Beneficiary.Proofs.Criteria.Order
import Beneficiary.Proofs.Criteria.Selections
import Beneficiary.Proofs.Text.Runs
import Beneficiary.Proofs.Targeting.FreeText
import Beneficiary.Proofs.Store.StoredSelections
import Beneficiary.Proofs.Calendar.Hyphens
import Beneficiary.Proofs.Json.Numerals
import Beneficiary.Proofs.Json.Integers
import Beneficiary.Proofs.Criteria.StoredValues
import Beneficiary.Proofs.Targeting.Removal
import Beneficiary.Proofs.Store.Admission
import Beneficiary.Proofs.Targeting.RecordedRounds
import Beneficiary.Proofs.Store.Statements
import Beneficiary.Proofs.Store.Constraints
import Beneficiary.Proofs.Http.InternalErrors
import Beneficiary.Proofs.Calendar.Order
import Beneficiary.Proofs.Calendar.Age
import Beneficiary.Proofs.Calendar.Timestamps
import Beneficiary.Proofs.Calendar.Readers
import Beneficiary.Proofs.Criteria.Resolution
