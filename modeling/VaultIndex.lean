import VaultIndex.Apr.Tasks
import VaultIndex.Harvest.Tasks
import VaultIndex.Main
import VaultIndex.Proofs.Gathering
import VaultIndex.Proofs.HarvestMoves
import VaultIndex.Proofs.LatestEvent
import VaultIndex.Table.Lookup
import VaultIndex.Proofs.Harvests
import VaultIndex.Proofs.HonestNode
import VaultIndex.Proofs.Tallies
import VaultIndex.Proofs.Consultations
import VaultIndex.Proofs.OracleCalls
import VaultIndex.Proofs.OracleWork
import VaultIndex.Proofs.Conservation
import VaultIndex.Proofs.ForeignVaults
import VaultIndex.Proofs.Liftings
import VaultIndex.Proofs.RunJournals
import VaultIndex.Proofs.Courses
import VaultIndex.Proofs.Passes
import VaultIndex.Proofs.Dialogues
import VaultIndex.Proofs.ApyMoves
import VaultIndex.Proofs.Calculations
import VaultIndex.Proofs.Accounting
import VaultIndex.Proofs.FeeLookups
import VaultIndex.Index.Outcome
import VaultIndex.Proofs.Listings
import VaultIndex.Proofs.AprSources
import VaultIndex.Proofs.HistoryTexts
import VaultIndex.Proofs.Permits
import VaultIndex.Proofs.SnapshotTexts
import VaultIndex.Proofs.LostReports
import VaultIndex.Proofs.Partitions
import VaultIndex.Proofs.BrokenStreams
import VaultIndex.Proofs.DecimalValues
import VaultIndex.Proofs.DebtRatios
import VaultIndex.Proofs.FirstAnswers
import VaultIndex.Proofs.WeightedAprs
import VaultIndex.Proofs.Situations
import VaultIndex.Proofs.Enumerations
import VaultIndex.Proofs.Batches
import VaultIndex.Proofs.Registries
import VaultIndex.Proofs.LogFates
