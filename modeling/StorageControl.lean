import StorageControl.Main
import StorageControl.World
import StorageControl.Http.Script
import StorageControl.Proofs.Gathering
import StorageControl.Proofs.Gathering.Clock
import StorageControl.Proofs.Change
import StorageControl.Proofs.Race
import StorageControl.Proofs.Abandonment
import StorageControl.Proofs.Login
import StorageControl.Proofs.Request
import StorageControl.Proofs.Timing
import StorageControl.Proofs.Process
import StorageControl.Proofs.Provenance
import StorageControl.Proofs.Sharing
import StorageControl.Proofs.Cancellation
import StorageControl.Proofs.Deadline
import StorageControl.Proofs.Aftermath
import StorageControl.Proofs.Misuse
import StorageControl.Proofs.Token
import StorageControl.Proofs.Document
import StorageControl.Proofs.Echo
import StorageControl.Proofs.Tolerance
import StorageControl.Proofs.Secrecy
import StorageControl.Proofs.Addressing
import StorageControl.Proofs.Labels.Pairs
import StorageControl.Proofs.Strictness
import StorageControl.Proofs.Grammar
import StorageControl.Proofs.ErrorDocument
import StorageControl.Proofs.Sorting
import StorageControl.Proofs.Causes
import StorageControl.Proofs.Destination
import StorageControl.Proofs.Departure
