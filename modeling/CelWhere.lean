import CelWhere.Proofs.Advice.Column
import CelWhere.Proofs.Advice.Consultation
import CelWhere.Proofs.Advice.Order
import CelWhere.Proofs.Advice.Table
import CelWhere.Proofs.Affix
import CelWhere.Proofs.Argument.Basic
import CelWhere.Proofs.Bytes
import CelWhere.Proofs.Detection
import CelWhere.Proofs.Duration.Basic
import CelWhere.Proofs.Identifier
import CelWhere.Proofs.Introspection.Columns
import CelWhere.Proofs.Introspection.Dataset
import CelWhere.Proofs.Moment
import CelWhere.Proofs.Naming
import CelWhere.Proofs.Negation.Basic
import CelWhere.Proofs.Nesting.Basic
import CelWhere.Proofs.Neutral
import CelWhere.Proofs.Overrun
import CelWhere.Proofs.Position.Basic
import CelWhere.Proofs.Presence
import CelWhere.Proofs.Regex.Repetition
import CelWhere.Proofs.Regex.Token
import CelWhere.Proofs.Reuse
import CelWhere.Proofs.Surface.Comment
import CelWhere.Proofs.Unit
import CelWhere.Proofs.Validation.Access
import CelWhere.Workload.Basic
