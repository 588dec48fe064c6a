import ApiLoom.Document.Lemmas
import ApiLoom.Files.Lemmas
import ApiLoom.Main
import ApiLoom.Plan.Reader
import ApiLoom.Proofs.Generation
import ApiLoom.Proofs.Meaning
import ApiLoom.Proofs.ReadAccess
import ApiLoom.Proofs.Values
import ApiLoom.Proofs.References
import ApiLoom.Proofs.Machine
import ApiLoom.Proofs.Execution
import ApiLoom.Proofs.Decision
import ApiLoom.Proofs.Writes
import ApiLoom.Proofs.WriteRequests
import ApiLoom.Proofs.RowRequests
import ApiLoom.Proofs.Statements
import ApiLoom.Proofs.Admission
import ApiLoom.Proofs.GuardedWrite
import ApiLoom.Proofs.Safeguards
import ApiLoom.Proofs.Provisional
import ApiLoom.Proofs.Artifacts
import ApiLoom.Proofs.SchemaNames
import ApiLoom.Proofs.BrokenLines
import ApiLoom.Proofs.SchemaTypes
import ApiLoom.Proofs.Tables
import ApiLoom.Proofs.ModelOrder
import ApiLoom.Proofs.InPlace
import ApiLoom.Proofs.PageRequests
import ApiLoom.Proofs.PageResponses
import ApiLoom.Proofs.Paging
import ApiLoom.Proofs.Indexes
import ApiLoom.Proofs.Columns
import ApiLoom.Proofs.Loading
import ApiLoom.Proofs.Builds
import ApiLoom.Proofs.ExitCodes
import ApiLoom.Proofs.Locality
import ApiLoom.Proofs.UnknownCallers
import ApiLoom.Proofs.CreatedRecords
import ApiLoom.Proofs.RejectedWrites
import ApiLoom.Proofs.Nesting
import ApiLoom.Proofs.UpdateNames
import ApiLoom.Proofs.AccessLines
import ApiLoom.Proofs.Pipelines
import ApiLoom.Proofs.InputFields
import ApiLoom.Proofs.EmptyInputs
import ApiLoom.Proofs.PageSizes
import ApiLoom.Proofs.LocalTimes
import ApiLoom.Proofs.SqlBodies
import ApiLoom.Proofs.PropertySources
import ApiLoom.Proofs.Hooks
import ApiLoom.Proofs.ReviewOrder
import ApiLoom.Proofs.LoadingModes
import ApiLoom.Proofs.SchemaOrder
import ApiLoom.Proofs.SeedRecords
import ApiLoom.Proofs.LoadedModels
import ApiLoom.Proofs.Overrides
import ApiLoom.Proofs.Exports
import ApiLoom.Proofs.JsonDocuments
import ApiLoom.Proofs.Quoting
import ApiLoom.Proofs.Aggregates
import ApiLoom.Proofs.Stores
import ApiLoom.Proofs.Descriptors
