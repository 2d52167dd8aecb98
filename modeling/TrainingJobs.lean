import TrainingJobs.Installer.Helm
import TrainingJobs.Main
import TrainingJobs.Settings.Writer
import TrainingJobs.Proofs.Exchanges
import TrainingJobs.Proofs.Paths
import TrainingJobs.Proofs.Registering
import TrainingJobs.Proofs.Crowd
import TrainingJobs.Proofs.CollisionFree
import TrainingJobs.Proofs.AutoNaming
import TrainingJobs.Proofs.Submitting
import TrainingJobs.Proofs.Undoing
import TrainingJobs.Proofs.Orphans
import TrainingJobs.Proofs.Counting
import TrainingJobs.Proofs.ForeignMaps
import TrainingJobs.Proofs.WantedJobs
import TrainingJobs.Proofs.OwnRecords
import TrainingJobs.Proofs.NodeShares
import TrainingJobs.Proofs.ProjectLists
import TrainingJobs.Proofs.TakingBack
import TrainingJobs.Proofs.WellFormed
import TrainingJobs.Proofs.Verdicts
import TrainingJobs.Proofs.FailedDeletions
import TrainingJobs.Proofs.RecordMaps
import TrainingJobs.Proofs.SubmittedJobs
import TrainingJobs.Proofs.FamilyNumbers
import TrainingJobs.Proofs.GrantedNames
import TrainingJobs.Proofs.CounterSteps
import TrainingJobs.Proofs.PruningInTurn
import TrainingJobs.Proofs.AcceptedRequests
import TrainingJobs.Proofs.ExactFloats
import TrainingJobs.Proofs.RequestedGpus
import TrainingJobs.Proofs.KeyValuePairs
import TrainingJobs.Proofs.DocumentKeys
import TrainingJobs.Proofs.DeletionReports
import TrainingJobs.Proofs.QuantityForms
import TrainingJobs.Proofs.QuantityReading
import TrainingJobs.Proofs.AcceptedAmounts
import TrainingJobs.Proofs.JobPods
import TrainingJobs.Proofs.RealStatus
import TrainingJobs.Proofs.SharedPods
import TrainingJobs.Proofs.PrintedStatus
import TrainingJobs.Proofs.ListedJobs
import TrainingJobs.Proofs.ExactSums
import TrainingJobs.Proofs.FractionalLimits
import TrainingJobs.Proofs.FinishedPods
import TrainingJobs.Proofs.NodeOrder
import TrainingJobs.Proofs.SampledUse
import TrainingJobs.Proofs.MergedAnswers
import TrainingJobs.Proofs.ByteAmounts
import TrainingJobs.Proofs.Ages
import TrainingJobs.Proofs.Thresholds
