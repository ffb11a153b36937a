import Bucketing.Settings
import Bucketing.Main
import Bucketing.Proofs.Projection
import Bucketing.Proofs.Predicate.AnyOf
import Bucketing.Proofs.Predicate.Comparator
import Bucketing.Proofs.Predicate.Negation
import Bucketing.Proofs.Predicate.Typing
import Bucketing.Proofs.Projection.Typing
import Bucketing.Proofs.Projection.Carrying
import Bucketing.Proofs.Projection.Failure
import Bucketing.Proofs.Projection.Tightness
import Bucketing.Proofs.Record.Lookup
import Bucketing.Proofs.Record.Separators
import Bucketing.Proofs.Projection.Complement
import Bucketing.Proofs.Projection.LiteralSets
import Bucketing.Proofs.Projection.Shape
import Bucketing.Proofs.Command
import Bucketing.Proofs.Command.Projection
import Bucketing.Proofs.Value.RoundTrip
import Bucketing.Proofs.Bucketer.Promotion
import Bucketing.Proofs.Bucketer.Text
import Bucketing.Proofs.ByteBuffer
import Bucketing.Proofs.ColumnType.Text
import Bucketing.Proofs.Decimal.MinimalBytes
import Bucketing.Proofs.Floating.Canonical
