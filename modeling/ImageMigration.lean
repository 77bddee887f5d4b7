import ImageMigration.Main
import ImageMigration.Proofs.Cleanup.AnyOrder
import ImageMigration.Proofs.Config.RoundTrip
import ImageMigration.Proofs.Conversion.AnyOrder
import ImageMigration.Proofs.Conversion.TargetsOnly
import ImageMigration.Proofs.Edit.OnePass
import ImageMigration.Proofs.Inventory.Exact
import ImageMigration.Proofs.Lookup.Selection
import ImageMigration.Proofs.Lookup.Target
import ImageMigration.Proofs.Migration.Books
import ImageMigration.Proofs.Migration.ChangeLog
import ImageMigration.Proofs.Migration.KeptReferences
import ImageMigration.Proofs.Migration.Preview
import ImageMigration.Proofs.Migration.SecondRun
import ImageMigration.Proofs.Migration.SourcesRead
import ImageMigration.Proofs.Plan.Account
import ImageMigration.Proofs.Plan.Meaning
import ImageMigration.Proofs.Plan.Settled
import ImageMigration.Proofs.Reference.SourceSet
import ImageMigration.Proofs.Script.Quoting
import ImageMigration.Proofs.Summary.RoundTrip
import ImageMigration.Proofs.Update.EachAlone
import ImageMigration.Proofs.Usage.ExactName
import ImageMigration.Proofs.Usage.Partition
import ImageMigration.Proofs.Usage.Permissive
