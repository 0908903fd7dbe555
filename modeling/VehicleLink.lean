import VehicleLink.Main
import VehicleLink.Config.Link
import VehicleLink.Worker.Remote
import VehicleLink.Worker.Scripted
import VehicleLink.Proofs.OutboundStream
import VehicleLink.Proofs.Target
import VehicleLink.Proofs.Agreement
import VehicleLink.Proofs.Settled
import VehicleLink.Proofs.InboundStream
import VehicleLink.Proofs.FailureReports
import VehicleLink.Proofs.History
import VehicleLink.Proofs.CallOrder
import VehicleLink.Proofs.Cancellation
import VehicleLink.Proofs.Coherence
import VehicleLink.Proofs.Confirmation
import VehicleLink.Proofs.FailedSaves
import VehicleLink.Proofs.DeviceFile
import VehicleLink.Proofs.Restarts
import VehicleLink.Proofs.Pumpers
import VehicleLink.Proofs.StopRace
import VehicleLink.Proofs.Pacing
import VehicleLink.Proofs.OpenLink
import VehicleLink.Proofs.ScanWindow
import VehicleLink.Proofs.Completions
import VehicleLink.Proofs.PumpedEvents
import VehicleLink.Proofs.Retargeting
import VehicleLink.Proofs.HeldBack
import VehicleLink.Proofs.Summaries
import VehicleLink.Proofs.RefusedScans
import VehicleLink.Proofs.FileStore
import VehicleLink.Proofs.CleanExit
import VehicleLink.Proofs.Notifications
import VehicleLink.Proofs.FastPolling
import VehicleLink.Proofs.Cadence
import VehicleLink.Proofs.Lifecycle
import VehicleLink.Proofs.AddressText
import VehicleLink.Proofs.Counters
import VehicleLink.Proofs.RewrittenFile
import VehicleLink.Proofs.Readiness
import VehicleLink.Proofs.CommandList
import VehicleLink.Proofs.ProbeRounds
import VehicleLink.Proofs.Observations
import VehicleLink.Proofs.ConnectionFields
import VehicleLink.Proofs.CountedFragments
import VehicleLink.Proofs.AddressStages
