import Consignment.Proofs.Broker.Commits
import Consignment.Proofs.Broker.Feed
import Consignment.Proofs.Broker.Record
import Consignment.Proofs.DeadLetter
import Consignment.Proofs.Deadline
import Consignment.Proofs.Gate
import Consignment.Proofs.MessageKey
import Consignment.Proofs.Missing
import Consignment.Proofs.Overlay
import Consignment.Proofs.Pipeline
import Consignment.Proofs.Producer
import Consignment.Proofs.Publish
import Consignment.Proofs.Retry.Delay
import Consignment.Proofs.Retry.WorstCase
import Consignment.Proofs.Settings
import Consignment.Proofs.Shuffled
import Consignment.Proofs.Stage.Conservation
import Consignment.Proofs.Stage.Custody
import Consignment.Proofs.Stage.Handle
import Consignment.Proofs.Stage.Lawful
import Consignment.Proofs.Stage.Order
import Consignment.Proofs.Stage.Progress
import Consignment.Proofs.Stage.Replay
import Consignment.Proofs.Stage.Runs
import Consignment.Proofs.Store.Atomic
import Consignment.Proofs.Store.Lifecycle
import Consignment.Proofs.Store.Malformed
import Consignment.Proofs.Store.Merge
import Consignment.Proofs.Store.Race
import Consignment.Proofs.Store.Redelivery
import Consignment.Proofs.Validation.Absent
import Consignment.Proofs.Validation.Agreement
import Consignment.Proofs.Validation.Descent
import Consignment.Proofs.Worker.Discipline
import Consignment.Proofs.Worker.OnStage
import Consignment.Rehearsal
import Consignment.Retry.Script
import Consignment.Samples
