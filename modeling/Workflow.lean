import Workflow.Main
import Workflow.Proofs.Authoring.Faithful
import Workflow.Proofs.Authoring.Family
import Workflow.Proofs.Authoring.Pushing
import Workflow.Proofs.Run.Cycles
import Workflow.Proofs.Run.Dispatch
import Workflow.Proofs.Run.Fields
import Workflow.Proofs.Run.Footprint
import Workflow.Proofs.Run.Limits
import Workflow.Proofs.Run.Outputs
import Workflow.Proofs.Wire.RoundTrip
import Workflow.Proofs.Identifiers
import Workflow.Proofs.Run.Extension
import Workflow.Proofs.Run.Failure
import Workflow.Proofs.Run.Replaying
import Workflow.Proofs.Run.Inspection
import Workflow.Proofs.Validation.Reachable
import Workflow.Proofs.Validation.WellFormed
import Workflow.Proofs.Authoring.Updates
import Workflow.Proofs.Run.Summary
import Workflow.Proofs.Run.Matching
import Workflow.Proofs.Authoring.Flattening
import Workflow.Proofs.Run.Records
import Workflow.Proofs.Run.Accounts
import Workflow.Proofs.Run.Results
import Workflow.Proofs.Authoring.Merging
import Workflow.Proofs.Authoring.Rendering
import Workflow.Proofs.Comparison
import Workflow.Proofs.Trace.Grouping
import Workflow.Proofs.Path
import Workflow.Proofs.Order
import Workflow.Proofs.Run.Guard
import Workflow.Proofs.Trace.Seen
