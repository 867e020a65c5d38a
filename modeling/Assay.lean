import Assay.Blueprint.Basic
import Assay.Json.Exchange
import Assay.Json.Reader
import Assay.Pattern.Reader
import Assay.Schema.Description
import Assay.Proofs.Entries
import Assay.Proofs.Run
import Assay.Proofs.Acceptance
import Assay.Proofs.Extension
import Assay.Proofs.Leniency
import Assay.Proofs.Construction
import Assay.Proofs.Conformance
import Assay.Proofs.Presence
import Assay.Proofs.Agreement
import Assay.Proofs.Calls
import Assay.Proofs.Depth
import Assay.Proofs.References
import Assay.Proofs.Termination
import Assay.Proofs.Surroundings
import Assay.Proofs.Blueprint
import Assay.Proofs.Callbacks
import Assay.Proofs.Routing
import Assay.Proofs.Tolerance
import Assay.Proofs.Deferral
import Assay.Proofs.Idempotence
import Assay.Proofs.Calendar
import Assay.Proofs.Timestamps
import Assay.Proofs.Range
import Assay.Proofs.Doubles
import Assay.Proofs.Exchange
import Assay.Proofs.Blame
import Assay.Proofs.Coercion
import Assay.Proofs.Essence
import Assay.Proofs.Fields
import Assay.Proofs.Selection
import Assay.Proofs.Checks
import Assay.Proofs.Declaration
import Assay.Proofs.Omission
import Assay.Proofs.Scalars
import Assay.Proofs.Spellings
import Assay.Proofs.Exclusivity
import Assay.Proofs.Visits
import Assay.Proofs.Siblings
import Assay.Proofs.Numerals
import Assay.Proofs.Lineage
import Assay.Proofs.Places
import Assay.Proofs.Absence
import Assay.Proofs.Notices
import Assay.Proofs.Patterns
import Assay.Proofs.CaseFormats
